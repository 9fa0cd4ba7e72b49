import LinearProgram.Description
import LinearProgram.Model
import LinearProgram.Scalar.Double
import LinearProgram.Text.Quoted
/-!
# From a description to a model

`Model.toModel` makes the model that a description stands for.  Every declared
variable becomes one variable, told apart by its position among the declarations,
and every term that names it refers to it.  A description is inconsistent when two
declarations share a name, or when a term names a variable that is not declared.
-/
namespace LinearProgram.Description

/-- The place of a function in a description. -/
inductive Place where
  | objective
  | named (name : Text)
  | numbered (position : Nat)
deriving DecidableEq, Repr

/-- The words for a place. -/
def Place.text : Place → Text
  | objective => "objective"
  | named name => "constraint '" ++ name ++ "'"
  | numbered position => "constraint #" ++ toString position

/-- The place of a constraint: by its name if it has one, else by its position. -/
def Place.ofConstraint (position : Nat) (name : Text) : Place :=
  if name.isEmpty then numbered position else named name

/-- Why a description stands for no model. -/
inductive Inconsistency where
  /-- These names are declared more than once. -/
  | duplicateNames (names : List Text)
  /-- A function refers to a variable that is not declared. -/
  | unknownVariable (place : Place) (name : Text)
deriving DecidableEq, Repr

/-- The sentence for an inconsistency. -/
def Inconsistency.message : Inconsistency → Text
  | duplicateNames names =>
    "Duplicate variable names found: " ++ Text.quotedList names ++ "."
  | unknownVariable place name =>
    "The " ++ place.text ++ " references unknown variable '" ++ name ++ "'."

/-- The names that occur more than once, each once, in the order of code points. -/
def duplicates (names : List Text) : List Text :=
  (names.eraseDups.filter fun n => 1 < names.count n).mergeSort Text.le

/-- The variable of a declaration. -/
def Variable.declared (id : Nat) (v : Variable) : LinearProgram.Variable Float :=
  .declare id v.name v.domain (v.minimum?.map .real) (v.maximum?.map .real)

/-- The variables of the declarations, in order. -/
def Model.declared (m : Model) : List (LinearProgram.Variable Float) :=
  m.declarations.zipIdx.map fun p => p.1.declared p.2

/-- The function of a description, over declared variables. -/
def Function.toFunction (declared : List (LinearProgram.Variable Float)) (place : Place)
    (f : Function) : Except Inconsistency (LinearFunction Float) := do
  let terms ← f.terms.mapM fun t =>
    match declared.find? (·.name = t.variableName) with
    | some v => .ok (⟨v, .real t.factor⟩ : LinearProgram.Term Float)
    | none => .error (.unknownVariable place t.variableName)
  return ⟨terms, f.constant⟩

/-- The constraint of a description, labelled with its name. -/
def Constraint.toConstraint (declared : List (LinearProgram.Variable Float)) (position : Nat)
    (c : Constraint) : Except Inconsistency (LabeledConstraint Float) := do
  let f ← c.function.toFunction declared (.ofConstraint position c.name)
  return ⟨⟨f, c.comparison, c.constant⟩, some c.name⟩

/-- The model of a description. -/
def Model.toModel (m : Model) : Except Inconsistency (LinearProgram.Model Float) := do
  let dups := duplicates (m.declarations.map (·.name))
  if !dups.isEmpty then throw (.duplicateNames dups)
  let objective? ← m.objective?.mapM fun o => do
    return (⟨← o.function.toFunction m.declared .objective, o.optimization⟩ :
      LinearProgram.Objective Float)
  let constraints ← m.constraints.zipIdx.mapM fun p => p.1.toConstraint m.declared p.2
  return ⟨m.name, objective?, constraints⟩

end LinearProgram.Description
