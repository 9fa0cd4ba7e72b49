import LinearProgram.LinearFunction
/-!
# Constraints and objectives

A constraint compares the value of a linear function with a real; an objective
says in which direction a linear function is to be optimised.
-/
namespace LinearProgram

/-- How the two sides of a constraint are compared. -/
inductive Comparison where
  | lte
  | eq
  | gte
deriving DecidableEq, Repr

namespace Comparison

/-- The word for a comparison. -/
def name : Comparison → String
  | lte => "lte"
  | eq => "eq"
  | gte => "gte"

/-- The comparison of a word. -/
def ofName? (word : Text) : Option Comparison :=
  [lte, eq, gte].find? fun c => Text.ofString c.name = word

/-- The comparison with its sides exchanged. -/
def flipped : Comparison → Comparison
  | lte => gte
  | eq => eq
  | gte => lte

/-- Whether two reals compare so. -/
def holds {R : Type} [Scalar R] (c : Comparison) (x y : R) : Bool :=
  match c with
  | lte => Scalar.le x y
  | eq => Scalar.eq x y
  | gte => Scalar.le y x

end Comparison

/-- The direction of an objective. -/
inductive Optimization where
  | minimize
  | maximize
deriving DecidableEq, Repr

/-- The word for a direction. -/
def Optimization.name : Optimization → String
  | .minimize => "minimize"
  | .maximize => "maximize"

/-- The direction of a word. -/
def Optimization.ofName? (word : Text) : Option Optimization :=
  [Optimization.minimize, .maximize].find? fun o => Text.ofString o.name = word

/-- `function comparison constant`. -/
structure Constraint (R : Type) where
  function : LinearFunction R
  comparison : Comparison
  constant : R
deriving DecidableEq, Repr

/-- A linear function to be made small or large. -/
structure Objective (R : Type) where
  function : LinearFunction R
  optimization : Optimization
deriving DecidableEq, Repr

variable {R : Type} [Scalar R]

namespace Constraint

/-- Whether the constraint holds under a valuation of names. -/
def holds? (c : Constraint R) (values : Text → Number R) : Option Bool :=
  (c.function.value? values).map fun x => c.comparison.holds x c.constant

/-- The right-hand side once the constant of the function is moved there. -/
def rightHandSide (c : Constraint R) : R :=
  c.constant - c.function.constant

/-- The constraint with its function in normal form. -/
def normalized? [DecidableEq R] (c : Constraint R) : Option (Constraint R) :=
  c.function.normalized?.map fun f => { c with function := f }

end Constraint

/-- The objective with its function in normal form. -/
def Objective.normalized? [DecidableEq R] (o : Objective R) : Option (Objective R) :=
  o.function.normalized?.map fun f => { o with function := f }

end LinearProgram
