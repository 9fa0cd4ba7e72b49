import LinearProgram.Model
import LinearProgram.Scalar.Double
import LinearProgram.Text.Quoted
/-!
# Values of a session

In a session expressions, constraints and models are built step by step and kept
under names.  Nothing is checked before it is needed: a term may have a text as its
factor and a model a number as its objective, and each fails where that part is used.
So the values are open, and every one is known by its parts.

Two objects may be equal and yet not the same, so everything that is built carries a
number or a `Mark` that tells it from others with the same content; a variable carries its
own identity.  The parts of an object are objects themselves and stay the same ones inside
it.

The projections (`Value.function?`, `Value.model?`, …) forget the identities and give
what the rest of the library speaks of, if every part is what it should be.
-/
namespace LinearProgram.Session

/-- What tells an object from others with the same content. -/
inductive Mark where
  /-- The one object that everything with this content uses. -/
  | shared
  /-- The object that was made at some point, by the number of its making. -/
  | made (serial : Nat)
deriving DecidableEq, Repr

/-- A real that is an object. -/
structure RealObject where
  mark : Mark
  value : Float

/-- The real 0 of which there is one object. -/
def RealObject.zero : RealObject :=
  ⟨.shared, 0⟩

/-- A named choice. -/
inductive Word where
  | domain (d : Domain)
  | comparison (c : Comparison)
  | optimization (o : Optimization)
deriving DecidableEq, Repr

/-- The text of a choice. -/
def Word.text : Word → Text
  | domain d => d.name
  | comparison c => c.name
  | optimization o => o.name

/-- The name of a choice among its class. -/
def Word.member : Word → Text
  | domain .real => "REAL"
  | domain .integer => "INTEGER"
  | domain .binary => "BINARY"
  | comparison .lte => "LTE"
  | comparison .eq => "EQ"
  | comparison .gte => "GTE"
  | optimization .minimize => "MINIMIZE"
  | optimization .maximize => "MAXIMIZE"

/-- The class of a choice. -/
def Word.className : Word → Text
  | domain _ => "Domain"
  | comparison _ => "Comparison"
  | optimization _ => "Optimization"

/-- A value of a session. -/
inductive Value where
  | nothing
  | number (mark : Mark) (k : Number Float)
  | text (mark : Mark) (t : Text)
  | word (w : Word)
  | list (serial : Nat) (items : List Value)
  | tuple (mark : Mark) (items : List Value)
  /-- Values under keys, as they were written down. -/
  | record (serial : Nat) (keys : List Text) (items : List Value)
  | variable (id : Nat) (name : Value) (domain : Domain) (minimum maximum : Value)
  /-- A factor times an unknown, which should be a variable. -/
  | term (serial : Nat) (unknown factor : Value)
  /-- A linear function; its tuple of terms has a mark of its own. -/
  | function (serial : Nat) (tuple : Mark) (terms : List Value) (constant : RealObject)
  | constraint (serial : Nat) (function : Value) (comparison : Comparison) (constant : RealObject)
  | objective (serial : Nat) (function : Value) (optimization : Optimization)
  /-- A model, with a tuple of pairs as its constraints. -/
  | model (serial : Nat) (name objective constraints : Value)

/-- Why a step has no value. -/
inductive Fault where
  /-- An integer is too large to become a real. -/
  | overflow
  /-- The quotient of two integers is too large to be a real. -/
  | wideQuotient
  /-- An integer is too large to count repetitions. -/
  | wideCount
  /-- A repeated text is too long for its characters to be counted. -/
  | wideText
  /-- There is no room for a repeated text or list. -/
  | noRoom
  /-- The action has no meaning for these values. -/
  | unsupported
  /-- A value that is no linear expression, as text. -/
  | notLinear (text : Text)
  /-- A text that is not a number, as it is shown. -/
  | notNumeral (shown : Text)
  /-- A text where digits of a number are to be written. -/
  | textAsNumber
  /-- A field of a made object cannot be changed; its name as it is shown. -/
  | frozen (shown : Text)
  /-- The fields of a choice cannot be changed; the name of the field as it is shown. -/
  | fixedField (shown : Text)
  /-- A field of a number cannot be changed; its name as it is shown. -/
  | constantField (shown className : Text)
  /-- Nothing is kept under this name, as it is shown. -/
  | unknownName (shown : Text)
  | unknownField (className field : Text)
  | unknownDomain (shown : Text)
  | unknownComparison (shown : Text)
  | unknownOptimization (shown : Text)
  /-- There is no element at a position. -/
  | noElement
  /-- A pair has this number of parts, fewer than two. -/
  | shortPair (count : Nat)
  /-- A pair has more than two parts. -/
  | longPair
  /-- A division by zero, of integers or with a real. -/
  | divisionByZero (ofReals : Bool)
deriving DecidableEq, Repr

/-- The sentence for a fault, if it has one. -/
def Fault.message? : Fault → Option Text
  | overflow => some "int too large to convert to float"
  | wideQuotient => some "integer division result too large for a float"
  | wideCount => some "cannot fit 'int' into an index-sized integer"
  | wideText => some "repeated string is too long"
  | noRoom => some []
  | unsupported => none
  | notLinear text => some ("Not a linear expression: " ++ text)
  | notNumeral shown => some ("could not convert string to float: " ++ shown)
  | textAsNumber => some "Unknown format code 'g' for object of type 'str'"
  | frozen shown => some ("cannot assign to field " ++ shown)
  | fixedField shown => some ("<enum 'Enum'> cannot set attribute " ++ shown)
  | constantField shown className =>
    some ("attribute " ++ shown ++ " of '" ++ className ++ "' objects is not writable")
  | unknownName shown => some shown
  | unknownField className field =>
    some ("'" ++ className ++ "' object has no attribute '" ++ field ++ "'")
  | unknownDomain shown => some (shown ++ " is not a valid Domain")
  | unknownComparison shown => some (shown ++ " is not a valid Comparison")
  | unknownOptimization shown => some (shown ++ " is not a valid Optimization")
  | noElement => some "list index out of range"
  | shortPair count =>
    some ("not enough values to unpack (expected 2, got " ++ toString count ++ ")")
  | longPair => some "too many values to unpack (expected 2)"
  | divisionByZero false => some "division by zero"
  | divisionByZero true => some "float division by zero"

namespace Value

/-- The class of a value. -/
def className : Value → Text
  | nothing => "NoneType"
  | text _ _ => "str"
  | number _ (.int _) => "int"
  | number _ (.bool _) => "bool"
  | number _ (.real _) => "float"
  | word w => w.className
  | list _ _ => "list"
  | tuple _ _ => "tuple"
  | record _ _ _ => "dict"
  | .variable _ _ _ _ _ => "Variable"
  | term _ _ _ => "Term"
  | function _ _ _ _ => "LinearFunction"
  | constraint _ _ _ _ => "LinearConstraint"
  | objective _ _ _ => "Objective"
  | model _ _ _ _ => "Model"

/-- The fault that a value has no field of a name. -/
def without (v : Value) (field : Text) : Fault :=
  .unknownField v.className field

/-- A real as a value. -/
def ofReal (x : RealObject) : Value :=
  number x.mark (.real x.value)

/-- A truth value. -/
def ofBool (b : Bool) : Value :=
  number .shared (.bool b)

/-! ## Parts -/

/-- The parts of a value under their names. -/
def parts : Value → List (Text × Value)
  | word w => [("value", text .shared w.text), ("name", text .shared w.member)]
  | .variable _ name d lo hi =>
    [("name", name), ("domain", word (.domain d)), ("minimum", lo), ("maximum", hi)]
  | term _ x k => [("variable", x), ("factor", k)]
  | function _ m ts c => [("terms", tuple m ts), ("constant", ofReal c)]
  | constraint _ f r c =>
    [("function", f), ("comparison", word (.comparison r)), ("constant", ofReal c)]
  | objective _ f o => [("function", f), ("optimization", word (.optimization o))]
  | model _ name o cs => [("name", name), ("objective", o), ("constraints", cs)]
  | _ => []

/-- The part of a value with a name. -/
def part (name : Text) (v : Value) : Except Fault Value :=
  match v.parts.lookup name with
  | some p => .ok p
  | none => .error (v.without name)

/-- The items of a list or a tuple. -/
def elements : Value → List Value
  | list _ vs | tuple _ vs => vs
  | _ => []

/-- The pairs of a model: its constraints with their labels. -/
def pairs (v : Value) : Except Fault (List Value) :=
  (v.part "constraints").map elements

/-- The terms of a function. -/
def termList : Value → List Value
  | function _ _ ts _ => ts
  | _ => []

/-- The number that a value is. -/
def number? : Value → Option (Number Float)
  | number _ k => some k
  | _ => none

/-- The integer that a value is. -/
def integer? (v : Value) : Option Int :=
  v.number?.bind Number.integer?

/-- The text that a value is or stands for. -/
def text? : Value → Option Text
  | text _ t => some t
  | word w => some w.text
  | _ => none

/-- Whether a value is a variable or a linear function. -/
def isExpression : Value → Bool
  | .variable _ _ _ _ _ | function _ _ _ _ => true
  | _ => false

/-- Whether a value counts as true: nothing, zero and what is empty do not. -/
def isTruthy : Value → Bool
  | nothing => false
  | number _ k => !k.isZero
  | text _ t => !t.isEmpty
  | list _ vs | tuple _ vs | record _ _ vs => !vs.isEmpty
  | _ => true

/-! ## Without identities -/

/-- A bound of a variable: a number, or nothing for none. -/
def bound? : Value → Option (Option (Number Float))
  | nothing => some none
  | number _ k => some (some k)
  | _ => none

/-- The variable of a value. -/
def var? : Value → Option (Variable Float)
  | .variable id (text _ name) d lo hi => do return ⟨id, name, d, ← lo.bound?, ← hi.bound?⟩
  | _ => none

/-- The term of a value. -/
def term? : Value → Option (Term Float)
  | term _ x (number _ k) => x.var?.map (⟨·, k⟩)
  | _ => none

/-- The linear function of a value. -/
def function? : Value → Option (LinearFunction Float)
  | function _ _ ts c => (ts.mapM term?).map (⟨·, c.value⟩)
  | _ => none

/-- The constraint of a value. -/
def constraint? : Value → Option (Constraint Float)
  | constraint _ f r c => f.function?.map (⟨·, r, c.value⟩)
  | _ => none

/-- The objective of a value. -/
def objective? : Value → Option (Objective Float)
  | objective _ f o => f.function?.map (⟨·, o⟩)
  | _ => none

/-- A label: a text, or nothing for none. -/
def label? : Value → Option (Option Text)
  | nothing => some none
  | text _ t => some (some t)
  | _ => none

/-- The constraint of a pair with its label. -/
def labeled? : Value → Option (LabeledConstraint Float)
  | tuple _ [c, label] => do return ⟨← c.constraint?, ← label.label?⟩
  | _ => none

/-- The model of a value. -/
def model? : Value → Option (Model Float)
  | model _ (text _ name) nothing cs => do
    return ⟨name, none, ← cs.elements.mapM labeled?⟩
  | model _ (text _ name) o cs => do
    return ⟨name, some (← o.objective?), ← cs.elements.mapM labeled?⟩
  | _ => none

/-! ## With identities -/

/-- A number that is its own object. -/
def ofNumber (k : Number Float) : Value :=
  number .shared k

/-- A variable as a value. -/
def ofVariable (v : Variable Float) : Value :=
  .variable v.id (text .shared v.name) v.domain (v.minimum?.elim nothing ofNumber)
    (v.maximum?.elim nothing ofNumber)

/-- A linear function as a value. -/
def ofFunction (f : LinearFunction Float) : Value :=
  function 0 .shared (f.terms.map fun t => term 0 (ofVariable t.var) (ofNumber t.factor))
    ⟨.shared, f.constant⟩

/-- A model as a value; its constraints are told apart by their positions. -/
def ofModel (m : Model Float) : Value :=
  model 0 (text .shared m.name)
    (m.objective?.elim nothing fun o => objective 0 (ofFunction o.function) o.optimization)
    (tuple .shared (m.constraints.zipIdx.map fun p =>
      let c := p.1.constraint
      tuple .shared [constraint p.2 (ofFunction c.function) c.comparison ⟨.shared, c.constant⟩,
        p.1.label?.elim nothing (text .shared)]))

end Value

end LinearProgram.Session
