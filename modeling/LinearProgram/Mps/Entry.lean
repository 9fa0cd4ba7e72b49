import LinearProgram.Model
/-!
# The entries of the columns

The terms of a model stand in rows; the model file lists them by column.
`Model.entries` turns every term with a factor other than zero into an entry of its
variable, the constraint rows in order and the objective last, and
`Model.columnEntries` collects the entries of each variable.
-/
namespace LinearProgram

/-- A row of the program. -/
inductive Row where
  | constraint (position : Nat)
  | objective
deriving DecidableEq, Repr

variable {R : Type} [Scalar R]

/-- The entries of one function, which stands in the given row. -/
def LinearFunction.entries (row : Row) (f : LinearFunction R) :
    List (Variable R × (Row × Number R)) :=
  f.nonzeroTerms.map fun t => (t.var, (row, t.factor))

namespace Model

/-- Every entry of the model: constraint rows in order, then the objective. -/
def entries (m : Model R) : List (Variable R × (Row × Number R)) :=
  m.constraints.zipIdx.flatMap (fun p => p.1.constraint.function.entries (.constraint p.2)) ++
    m.objective?.toList.flatMap (·.function.entries .objective)

variable [DecidableEq R]

/-- The entries of each variable that has one, in the order of first occurrence. -/
def columnEntries (m : Model R) : List (Variable R × List (Row × Number R)) :=
  group m.entries

/-- The entries of one variable. -/
def entriesOf (m : Model R) (v : Variable R) : List (Row × Number R) :=
  valuesOf v m.entries

end Model

end LinearProgram
