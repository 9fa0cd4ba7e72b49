import LinearProgram.Constraint
/-!
# Models

A model is an optional objective and a list of constraints with labels.  The
position of a variable in `vars` is its column: variables are listed in the
order of first occurrence, the objective first.
-/
namespace LinearProgram

/-- A constraint with its label; a label may be empty, absent, or used twice. -/
structure LabeledConstraint (R : Type) where
  constraint : Constraint R
  label? : Option Text
deriving DecidableEq, Repr

/-- A linear program. -/
structure Model (R : Type) where
  name : Text
  objective? : Option (Objective R)
  constraints : List (LabeledConstraint R)
deriving DecidableEq, Repr

namespace Model

variable {R : Type}

/-- The direction of the objective; a model without one minimises. -/
def optimization (m : Model R) : Optimization :=
  m.objective?.elim .minimize (·.optimization)

/-- Whether the model maximises. -/
def maximizes (m : Model R) : Bool :=
  m.optimization = .maximize

/-- The function of the objective, if there is one, and those of the constraints. -/
def functions (m : Model R) : List (LinearFunction R) :=
  (m.objective?.map (·.function)).toList ++ m.constraints.map (·.constraint.function)

/-- Every term of the model, the objective's first. -/
def terms (m : Model R) : List (Term R) :=
  m.functions.flatMap (·.terms)

/-- The model with every function replaced. -/
def mapFunctions (f : LinearFunction R → LinearFunction R) (m : Model R) : Model R :=
  { m with
    objective? := m.objective?.map fun o => { o with function := f o.function }
    constraints := m.constraints.map fun c =>
      { c with constraint := { c.constraint with function := f c.constraint.function } } }

variable [DecidableEq R]

/-- The distinct variables in the order of first occurrence. -/
def vars (m : Model R) : List (Variable R) :=
  (m.terms.map (·.var)).eraseDups

/-- The model with its variables told apart by their columns. -/
def numbered (m : Model R) : Model R :=
  let columns := m.vars
  m.mapFunctions fun f =>
    ⟨f.terms.map fun t => ⟨{ t.var with id := columns.idxOf t.var }, t.factor⟩, f.constant⟩

variable [Scalar R]

/-- The model with every function in normal form. -/
def normalized? (m : Model R) : Option (Model R) := do
  let objective? ← m.objective?.mapM Objective.normalized?
  let constraints ← m.constraints.mapM fun c => do
    return { c with constraint := ← c.constraint.normalized? }
  return { m with objective? := objective?, constraints := constraints }

end Model

end LinearProgram
