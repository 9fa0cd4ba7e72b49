import LinearProgram.Operand
import LinearProgram.Session.Text
import LinearProgram.Text.Numeral
/-!
# Making values

Actions that make objects number them one after another; `Making` is an action that
may make objects and may fail.  Here are the ways to new objects and the conversions.

Small integers, truth values, the empty text and single characters of Latin-1 have one
object each, and so have the empty tuple and the reals 0 and 1 that a variable, a term or a
function has when nothing else is said.
-/
namespace LinearProgram.Session

/-- An action that may make objects, numbered from a counter on, and may fail. -/
abbrev Making := StateT Nat (Except Fault)

/-- The number of the next object. -/
def fresh : Making Nat := do
  let n ← get
  set (n + 1)
  return n

/-- A result that fails by an integer that is too large. -/
def orOverflow {α : Type} : Option α → Making α
  | some a => pure a
  | none => throw .overflow

/-- A result that fails with a fault. -/
def orFault {α : Type} (fault : Fault) : Option α → Making α
  | some a => pure a
  | none => throw fault

/-- The fault of an operator. -/
def Fault.ofOperator : OperatorFault → Fault
  | .overflow => .overflow
  | .unsupported => .unsupported

/-! ## New objects -/

/-- Whether a number has one object. -/
def hasSharedNumber : Number Float → Bool
  | .int n => -5 ≤ n && n ≤ 256
  | .bool _ => true
  | .real _ => false

/-- Whether a text has one object. -/
def hasSharedText (t : Text) : Bool :=
  t.length < 2 && t.all (·.value < 256)

/-- The mark of a new number. -/
def markOf (k : Number Float) : Making Mark := do
  if hasSharedNumber k then return .shared else return .made (← fresh)

/-- A new real. -/
def newReal (x : Float) : Making RealObject := do
  return ⟨.made (← fresh), x⟩

/-- The mark of a tuple with items: that of a given tuple or a new one, and the one mark of
the tuple without any. -/
def tupleMark (isEmpty : Bool) (given? : Option Mark) : Making Mark := do
  if isEmpty then return .shared else match given? with
    | some m => return m
    | none => return .made (← fresh)

/-- A function that is an object. -/
structure FunctionObject where
  serial : Nat
  /-- The mark of the tuple of terms. -/
  tuple : Mark
  terms : List Value
  constant : RealObject

/-- The function as a value. -/
def FunctionObject.toValue (f : FunctionObject) : Value :=
  .function f.serial f.tuple f.terms f.constant

/-- The function without identities, if all its terms are terms. -/
def FunctionObject.function? (f : FunctionObject) : Option (LinearFunction Float) :=
  f.toValue.function?

/-- A new function with terms of any kind; its tuple of terms may be a given one. -/
def newFunctionOf (terms : List Value) (tuple? : Option Mark) (constant : RealObject) :
    Making FunctionObject := do
  let tuple ← tupleMark terms.isEmpty tuple?
  return ⟨← fresh, tuple, terms, constant⟩

/-- What a new function takes over from others: its first terms, the terms after them, which
are made anew with other factors, its tuple of terms and its constant. -/
structure Kept where
  terms : List Value
  renewed : List Value
  tuple? : Option Mark
  constant? : Option RealObject

/-- A new term that differs from another one by its factor. -/
def renewedTerm (k : Number Float) : Value → Making Value
  | .term _ x _ => do return .term (← fresh) x (.number (← markOf k) k)
  | v => return v

/-- A new function object with a value, which takes something over. -/
def newFunction (f : LinearFunction Float) (kept : Kept) : Making FunctionObject := do
  let factors := (f.terms.drop kept.terms.length).map (·.factor)
  let renewed ← (kept.renewed.zip factors).mapM fun p => renewedTerm p.2 p.1
  newFunctionOf (kept.terms ++ renewed) kept.tuple? (← kept.constant?.elim (newReal f.constant) pure)

/-- A new term of an unknown with the factor 1. -/
def termOf (x : Value) : Making Value := do
  return .term (← fresh) x (.ofReal ⟨.shared, 1⟩)

/-- A new function object whose value is a variable. -/
def functionOf (x : Value) : Making FunctionObject := do
  newFunctionOf [← termOf x] none .zero

namespace Value

/-- A new number. -/
def newNumber (k : Number Float) : Making Value := do
  return number (← markOf k) k

/-- A new text. -/
def newText (t : Text) : Making Value := do
  if hasSharedText t then return text .shared t else return text (.made (← fresh)) t

/-- A new list. -/
def newList (vs : List Value) : Making Value := do
  return list (← fresh) vs

/-- A new tuple. -/
def newTuple (vs : List Value) : Making Value := do
  return tuple (← tupleMark vs.isEmpty none) vs

/-! ## Conversions -/

/-- A value as a function object: a function is itself, a variable or a number
becomes a new one. -/
def asFunction : Value → Making FunctionObject
  | function serial m ts c => return ⟨serial, m, ts, c⟩
  | .variable id name d lo hi => functionOf (.variable id name d lo hi)
  | number m k => do
    let f ← orOverflow (LinearFunction.ofNumber? k)
    let constant? := match k with
      | .real x => some ⟨m, x⟩
      | _ => none
    newFunction f ⟨[], [], none, constant?⟩
  | v => do throw (.notLinear (← v.full))

/-- A value as a real: a number, or a text that reads as one.  A real stays the same
object. -/
def asReal : Value → Making RealObject
  | number m (.real x) => return ⟨m, x⟩
  | number _ k => do newReal (← orOverflow k.real?)
  | text _ t => do newReal (← orFault (.notNumeral (Text.quoted t)) (Text.real? t.chars))
  | word w => throw (.notNumeral w.full)
  | _ => throw .unsupported

/-- The items of a list or a tuple, the characters of a text, or the keys of a record. -/
def items : Value → Making (List Value)
  | list _ vs | tuple _ vs => return vs
  | text _ t => t.mapM fun p => newText [p]
  | word w => w.text.mapM fun p => newText [p]
  | record _ keys _ => keys.mapM newText
  | _ => throw .unsupported

end Value

end LinearProgram.Session
