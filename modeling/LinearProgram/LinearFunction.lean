import LinearProgram.Grouping
import LinearProgram.Variable
/-!
# Linear functions

A linear function `a · x + b · y + … + c` is a list of terms and a constant.  Its
operations join lists of terms and add constants; they never merge terms, so a
variable may occur more than once and with factor zero.  `normalized?` merges: one
term a variable, in the order of first occurrence, and no factor zero.

An operation that has to turn an integer into a real answers `none` when the
integer is too large.
-/
namespace LinearProgram

/-- A factor times a variable. -/
structure Term (R : Type) where
  var : Variable R
  factor : Number R
deriving DecidableEq, Repr

/-- Terms and a constant. -/
structure LinearFunction (R : Type) where
  terms : List (Term R)
  constant : R
deriving DecidableEq, Repr

variable {R : Type} [Scalar R]

namespace Term

/-- The term with the opposite factor. -/
def negated (t : Term R) : Term R :=
  ⟨t.var, t.factor.negated⟩

/-- The term with its factor multiplied. -/
def scaled? (k : Number R) (t : Term R) : Option (Term R) :=
  (k.mul? t.factor).map (⟨t.var, ·⟩)

/-- The value of the term under a valuation of names. -/
def value? (values : Text → Number R) (t : Term R) : Option (Number R) :=
  (values t.var.name).mul? t.factor

end Term

/-- The function whose value is the variable. -/
def Variable.toFunction (v : Variable R) : LinearFunction R :=
  ⟨[⟨v, .real 1⟩], 0⟩

namespace LinearFunction

/-! ## Building -/

/-- The constant function of a number. -/
def ofNumber? (k : Number R) : Option (LinearFunction R) :=
  k.real?.map (⟨[], ·⟩)

/-- The function with every factor and the constant negated. -/
def neg (f : LinearFunction R) : LinearFunction R :=
  ⟨f.terms.map Term.negated, -f.constant⟩

/-- The sum of two functions. -/
def add (f g : LinearFunction R) : LinearFunction R :=
  ⟨f.terms ++ g.terms, f.constant + g.constant⟩

/-- The difference of two functions. -/
def sub (f g : LinearFunction R) : LinearFunction R :=
  ⟨f.terms ++ g.terms.map Term.negated, f.constant - g.constant⟩

/-- A function plus a number. -/
def addNumber? (f : LinearFunction R) (k : Number R) : Option (LinearFunction R) :=
  k.real?.map fun x => ⟨f.terms, f.constant + x⟩

/-- A number plus a function. -/
def numberAdd? (k : Number R) (f : LinearFunction R) : Option (LinearFunction R) :=
  k.real?.map fun x => ⟨f.terms, x + f.constant⟩

/-- A function minus a number. -/
def subNumber? (f : LinearFunction R) (k : Number R) : Option (LinearFunction R) :=
  k.real?.map fun x => ⟨f.terms, f.constant - x⟩

/-- A number minus a function: the negated function plus the number. -/
def numberSub? (k : Number R) (f : LinearFunction R) : Option (LinearFunction R) :=
  f.neg.addNumber? k

/-- A function times a number, which is rounded to a real first. -/
def scale? (f : LinearFunction R) (k : Number R) : Option (LinearFunction R) := do
  let x ← k.real?
  let terms ← f.terms.mapM (Term.scaled? (.real x))
  return ⟨terms, x * f.constant⟩

/-- The sum of a list of functions, from the constant 0. -/
def total (fs : List (LinearFunction R)) : LinearFunction R :=
  ⟨fs.flatMap (·.terms), fs.foldl (fun c f => c + f.constant) 0⟩

/-! ## Evaluation -/

/-- The value under a valuation of names: the constant, and the values of the
terms added to it in order. -/
def value? (f : LinearFunction R) (values : Text → Number R) : Option R :=
  f.terms.foldlM (fun sum t => do return sum + (← (← t.value? values).real?)) f.constant

/-! ## The normal form -/

/-- The terms whose factor is not zero. -/
def nonzeroTerms (f : LinearFunction R) : List (Term R) :=
  f.terms.filter (!·.factor.isZero)

/-- The factors of each variable that are not zero. -/
def groups (f : LinearFunction R) [DecidableEq R] : List (Variable R × List (Number R)) :=
  group (f.nonzeroTerms.map fun t => (t.var, t.factor))

/-- The factor of a group: a lone factor as it is, several by their sum. -/
def combined? : List (Number R) → Option (Number R)
  | [x] => some x
  | xs => Number.sum? xs

/-- One term for each group whose factor is not zero, and the constant. -/
def merged? (f : LinearFunction R) [DecidableEq R] : Option (LinearFunction R) := do
  let terms ← f.groups.mapM fun g => do return (⟨g.1, ← combined? g.2⟩ : Term R)
  return ⟨terms.filter (!·.factor.isZero), f.constant⟩

/-- What normalising makes of a function. -/
inductive NormalForm (R : Type) where
  /-- The function is in normal form and stays as it is. -/
  | unchanged
  /-- Another function takes its place. -/
  | replaced (f : LinearFunction R)
deriving DecidableEq, Repr

/-- How a function is normalised.  No term, one term, and as many groups as terms
leave nothing to merge. -/
def normalForm? (f : LinearFunction R) [DecidableEq R] : Option (NormalForm R) :=
  match f.terms with
  | [] => some .unchanged
  | [t] => some (if t.factor.isZero then .replaced ⟨[], f.constant⟩ else .unchanged)
  | ts =>
    if f.groups.length = ts.length then some .unchanged
    else f.merged?.map .replaced

/-- The function that stands after normalising. -/
def NormalForm.apply (f : LinearFunction R) : NormalForm R → LinearFunction R
  | unchanged => f
  | replaced g => g

/-- The function with the terms of each variable merged and no factor zero; none
when factors have no sum because an integer is too large. -/
def normalized? (f : LinearFunction R) [DecidableEq R] : Option (LinearFunction R) :=
  f.normalForm?.map (·.apply f)

end LinearFunction

end LinearProgram
