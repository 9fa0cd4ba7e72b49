import LinearProgram.Session.Equality
import LinearProgram.Session.Making
/-!
# The operators of a session

What an operator makes of expressions and numbers is said by `Operand`; here it gets its
objects.  A sum of functions keeps their terms, and a function plus a number its whole
tuple of terms, while the terms of a negated or scaled function are new.  A function with
a term whose factor is no number is added, negated and scaled term by term.

Texts, lists and tuples can be joined, repeated and put in order.
-/
namespace LinearProgram.Session

/-- What an arithmetic operator combines. -/
inductive Side where
  | number (k : Number Float)
  | expression (f : FunctionObject)

/-- The operand of a side, if all its terms are terms. -/
def Side.operand? : Side → Option (Operand Float)
  | number k => some (.number k)
  | expression f => f.function?.map .expression

/-- A value as a side of an operator. -/
def Value.side : Value → Making Side
  | .number _ k => return .number k
  | .function serial m ts c => return .expression ⟨serial, m, ts, c⟩
  | .variable id name d lo hi => return .expression (← functionOf (.variable id name d lo hi))
  | _ => throw .unsupported

/-- The value of an operator that has one. -/
def valueOf (kept : Kept) : Except OperatorFault (Operand Float) → Making Value
  | .ok (.number k) => Value.newNumber k
  | .ok (.expression f) => return (← newFunction f kept).toValue
  | .error e => throw (.ofOperator e)

/-! ## Terms one by one -/

/-- The opposite of a function; `terms` are its opposite terms. -/
def FunctionObject.neg (f : FunctionObject) (terms : Making (List Value)) : Making Value :=
  match f.function? with
  | some g => valueOf ⟨[], f.terms, none, none⟩ (.ok (Operand.expression g).neg)
  | none => do
    let ts ← terms
    return (← newFunctionOf ts none (← newReal (-f.constant.value))).toValue

/-- A function scaled by a real; `terms` are its scaled terms. -/
def FunctionObject.scaled (f : FunctionObject) (x : Float) (terms : Making (List Value)) :
    Making Value :=
  match f.function? with
  | some g => valueOf ⟨[], f.terms, none, none⟩ (Operand.mul? (.number (.real x)) (.expression g))
  | none => do
    let ts ← terms
    return (← newFunctionOf ts none (← newReal (x * f.constant.value))).toValue

mutual

/-- `- a`. -/
def Value.neg : Value → Making Value
  | .number _ k => Value.newNumber k.negated
  | .variable id name d lo hi => do
    let x := Value.variable id name d lo hi
    (← functionOf x).neg do return [.term (← fresh) x (.ofReal (← newReal (-1)))]
  | .function serial m ts c => FunctionObject.neg ⟨serial, m, ts, c⟩ (negatedTerms ts)
  | _ => throw .unsupported

/-- The opposite terms. -/
def negatedTerms : List Value → Making (List Value)
  | [] => return []
  | .term _ x factor :: ts => do
    let k ← factor.neg
    return .term (← fresh) x k :: (← negatedTerms ts)
  | v :: _ => throw (v.without "negated")

end

mutual

/-- A real times a value. -/
def Value.scaledBy (k : Float) : Value → Making Value
  | .number _ j => do Value.newNumber (← orOverflow ((Number.real k).mul? j))
  | .variable id name d lo hi => do
    let x := Value.variable id name d lo hi
    (← functionOf x).scaled k do return [.term (← fresh) x (.ofReal (← newReal (k * 1)))]
  | .function serial m ts c => FunctionObject.scaled ⟨serial, m, ts, c⟩ k (scaledTerms k ts)
  | _ => throw .unsupported

/-- The terms scaled by a real. -/
def scaledTerms (k : Float) : List Value → Making (List Value)
  | [] => return []
  | .term _ x factor :: ts => do
    let j ← factor.scaledBy k
    return .term (← fresh) x j :: (← scaledTerms k ts)
  | v :: _ => throw (v.without "scaled")

end

/-! ## Arithmetic of expressions -/

/-- The operators of arithmetic. -/
inductive Arithmetic where
  | add
  | sub
  | mul
deriving DecidableEq, Repr

namespace Arithmetic

/-- The operator on operands. -/
def onOperands : Arithmetic → Operand Float → Operand Float → Except OperatorFault (Operand Float)
  | add => Operand.add?
  | sub => Operand.sub?
  | mul => Operand.mul?

/-- The tuple of terms of a sum of functions: that of one of them if the other has no terms. -/
def sumTuple? (f g : FunctionObject) : Option Mark :=
  if g.terms.isEmpty then some f.tuple else if f.terms.isEmpty then some g.tuple else none

/-- The tuple of terms of a difference of functions. -/
def differenceTuple? (f g : FunctionObject) : Option Mark :=
  if g.terms.isEmpty then some f.tuple else none

/-- What the result takes over from the sides. -/
def kept : Arithmetic → Side → Side → Kept
  | add, .expression f, .expression g => ⟨f.terms ++ g.terms, [], sumTuple? f g, none⟩
  | add, .expression f, .number _ | add, .number _, .expression f | sub, .expression f, .number _ =>
    ⟨f.terms, [], some f.tuple, none⟩
  | sub, .expression f, .expression g => ⟨f.terms, g.terms, differenceTuple? f g, none⟩
  | sub, .number _, .expression f | mul, .expression f, _ | mul, _, .expression f =>
    ⟨[], f.terms, none, none⟩
  | _, _, _ => ⟨[], [], none, none⟩

/-- The operator on sides with terms of any kind. -/
def onTerms : Arithmetic → Side → Side → Making Value
  | add, .expression f, .expression g => do
    let c ← newReal (f.constant.value + g.constant.value)
    return (← newFunctionOf (f.terms ++ g.terms) (sumTuple? f g) c).toValue
  | add, .expression f, .number k => do
    let c ← newReal (f.constant.value + (← orOverflow k.real?))
    return (← newFunctionOf f.terms (some f.tuple) c).toValue
  | add, .number k, .expression f => do
    let c ← newReal ((← orOverflow k.real?) + f.constant.value)
    return (← newFunctionOf f.terms (some f.tuple) c).toValue
  | sub, .expression f, .expression g => do
    let ts ← negatedTerms g.terms
    let c ← newReal (f.constant.value - g.constant.value)
    return (← newFunctionOf (f.terms ++ ts) (differenceTuple? f g) c).toValue
  | sub, .expression f, .number k => do
    let c ← newReal (f.constant.value - (← orOverflow k.real?))
    return (← newFunctionOf f.terms (some f.tuple) c).toValue
  | sub, .number k, .expression f => do
    let ts ← negatedTerms f.terms
    let c ← newReal (-f.constant.value + (← orOverflow k.real?))
    return (← newFunctionOf ts none c).toValue
  | mul, .expression f, .number k | mul, .number k, .expression f => do
    f.toValue.scaledBy (← orOverflow k.real?)
  | _, _, _ => throw .unsupported

/-- The operator on values that are numbers or expressions. -/
def apply (op : Arithmetic) (a b : Value) : Making Value := do
  let x ← a.side
  let y ← b.side
  match x.operand?, y.operand? with
  | some p, some q => valueOf (op.kept x y) (op.onOperands p q)
  | _, _ => op.onTerms x y

end Arithmetic

namespace Value

/-! ## Sequences -/

/-- The bound of an integer that counts repetitions or items. -/
def countBound : Int := 0x8000000000000000

/-- The most items for which there is room. -/
def mostItems : Nat := 100000000

/-- A list as often as a number says; `wide` is the fault when its items cannot be
counted. -/
def repeated {α : Type} (wide : Fault) (count : Int) (xs : List α) : Making (List α) :=
  if count < -countBound || countBound ≤ count then throw .wideCount
  else if xs.isEmpty then return []
  else if countBound ≤ xs.length * count then throw wide
  else if mostItems < xs.length * count then throw .noRoom
  else return (List.replicate count.toNat xs).flatten

/-- `a * n` for a text, a list or a tuple; a text or a tuple taken once stays the same
object. -/
def repeatBy (n : Int) (a : Value) : Making Value :=
  match a with
  | list _ vs => do newList (← repeated .noRoom n vs)
  | tuple _ vs => do if n = 1 then return a else newTuple (← repeated .noRoom n vs)
  | text _ t => do if n = 1 then return a else newText (← repeated .wideText n t)
  | word w => do newText (← repeated .wideText n w.text)
  | _ => throw .unsupported

/-- The two texts joined; a text joined with nothing stays the same object. -/
def joinTexts (a b : Value) (s t : Text) : Making Value :=
  match a, b with
  | text _ _, text _ [] => return a
  | text _ [], text _ _ => return b
  | _, _ => newText (s ++ t)

/-! ## Arithmetic -/

/-- `a + b`. -/
def add (a b : Value) : Making Value :=
  match a, b with
  | list _ as, list _ bs => newList (as ++ bs)
  | tuple _ as, tuple _ bs =>
    if bs.isEmpty then return a else if as.isEmpty then return b else newTuple (as ++ bs)
  | a, b =>
    match a.text?, b.text? with
    | some s, some t => joinTexts a b s t
    | _, _ => Arithmetic.add.apply a b

/-- `a - b`. -/
def sub (a b : Value) : Making Value :=
  Arithmetic.sub.apply a b

/-- Whether a value can be repeated. -/
def isSequence : Value → Bool
  | text _ _ | word _ | list _ _ | tuple _ _ => true
  | _ => false

/-- `a * b`. -/
def mul (a b : Value) : Making Value :=
  match a.isSequence, b.integer?, b.isSequence, a.integer? with
  | true, some n, _, _ => a.repeatBy n
  | _, _, true, some n => b.repeatBy n
  | _, _, _, _ => Arithmetic.mul.apply a b

/-- `a / b`, for numbers only: of integers the real nearest to their quotient, otherwise of
reals. -/
def div (a b : Value) : Making Value :=
  match a.number?, b.number? with
  | some j, some k =>
    match j.integer?, k.integer? with
    | some m, some n => do
      if n = 0 then throw (.divisionByZero false)
      newNumber (.real (← orFault .wideQuotient (Double.ofQuotient? m n)))
    | _, _ => do
      let x ← orOverflow j.real?
      let y ← orOverflow k.real?
      if Scalar.eq y 0 then throw (.divisionByZero true)
      newNumber (.real (x / y))
  | _, _ => throw .unsupported

/-- `+ a`: a number stays the same object unless it is a truth value, and a function keeps
its parts. -/
def pos : Value → Making Value
  | number m k => if k.plus = k then return number m k else newNumber k.plus
  | .variable id name d lo hi => do
    return (← functionOf (.variable id name d lo hi)).toValue
  | function _ m ts c => do return function (← fresh) m ts c
  | _ => throw .unsupported

/-! ## Comparison -/

/-- The constraint that compares an expression with a number; the terms of the expression do
not matter for how they compare. -/
def compareWith (c : Comparison) (a b : Value) : Making Value := do
  let bare (v : Value) : Operand Float := v.number?.elim (.expression ⟨[], 0⟩) .number
  match Operand.compare? c (bare a) (bare b) with
  | .error e => throw (.ofOperator e)
  | .ok p =>
    let (expression, bound) := if a.isExpression then (a, b) else (b, a)
    let f ← expression.asFunction
    return constraint (← fresh) f.toValue p.comparison (← bound.asReal)

end Value

/-- The operators that put two values in order. -/
inductive Order where
  | less
  | atMost
  | atLeast
  | greater
deriving DecidableEq, Repr

namespace Order

/-- Whether values with an order compare so; none stands for values without one. -/
def holds (r : Order) (o : Option Ordering) : Bool :=
  match r with
  | less => o = some .lt
  | atMost => o = some .lt || o = some .eq
  | atLeast => o = some .gt || o = some .eq
  | greater => o = some .gt

/-- The comparison that makes a constraint, if there is one. -/
def comparison? : Order → Option Comparison
  | atMost => some .lte
  | atLeast => some .gte
  | less | greater => none

end Order

/-- The order of two texts. -/
def textOrder (s t : Text) : Ordering :=
  if s < t then .lt else if s = t then .eq else .gt

namespace Value

mutual

/-- `a < b` and its like: a constraint for an expression with a number, where there is
one, and a truth value for two numbers, texts, lists or tuples. -/
def order (r : Order) (a b : Value) : Making Value :=
  match a, b with
  | list _ as, list _ bs => orderItems r as bs
  | tuple _ as, tuple _ bs => orderItems r as bs
  | a, b =>
    match a.constrains b, r.comparison? with
    | true, some c => a.compareWith c b
    | _, _ =>
      match a.number?, b.number?, a.text?, b.text? with
      | some j, some k, _, _ => return ofBool (r.holds (j.compare? k))
      | _, _, some s, some t => return ofBool (r.holds (some (textOrder s t)))
      | _, _, _, _ => throw .unsupported

/-- The same for the items of two lists or tuples: the first ones that differ decide, else
the lengths. -/
def orderItems (r : Order) : List Value → List Value → Making Value
  | a :: as, b :: bs => do
    if ← a.same .constraint b then orderItems r as bs else order r a b
  | as, bs => return ofBool (r.holds (some (compare as.length bs.length)))

end

/-- `a == b`: a constraint for an expression with a number, else a truth value. -/
def equals (a b : Value) : Making Value := do
  if a.constrains b then a.compareWith .eq b
  else return ofBool (← a.equal .constraint b)

/-- Whether a value counts as true in a test for equality: everything but false does. -/
def isTrue : Value → Bool
  | number _ (.bool b) => b
  | _ => true

/-- `a != b`: never a constraint, because a constraint counts as true. -/
def differs (a b : Value) : Making Value := do
  return ofBool (!(← a.equals b).isTrue)

/-- Whether a value is among others: it is identical or equal to one.  One that makes a
constraint of the value counts, and fails like it. -/
def isAmong (a : Value) : List Value → Making Bool
  | [] => return false
  | v :: vs => do if ← v.same .constraint a then return true else a.isAmong vs

/-- Whether a text occurs in another one. -/
def occursIn (s : Text) : Text → Bool
  | [] => s.isEmpty
  | p :: t => s.isPrefixOf (p :: t) || occursIn s t

/-- Whether a value is in a list or a tuple, a text in a text, or a key in a record. -/
def isIn (a b : Value) : Making Bool :=
  match b with
  | list _ vs | tuple _ vs => a.isAmong vs
  | record _ keys _ =>
    if a.isHashable then return a.text?.any keys.contains else throw .unsupported
  | b =>
    match a.text?, b.text? with
    | some s, some t => return occursIn s t
    | _, _ => throw .unsupported

end Value

end LinearProgram.Session
