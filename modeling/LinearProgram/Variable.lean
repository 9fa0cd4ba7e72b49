import LinearProgram.Number
import LinearProgram.Text
/-!
# Variables

A variable is told apart from every other by its `id`, not by its name: two
variables may share one.  Nothing here forbids that; `Validation` reports it.
-/
namespace LinearProgram

/-- The values a variable may take between its bounds. -/
inductive Domain where
  | real
  | integer
  | binary
deriving DecidableEq, Repr

/-- The word for a domain. -/
def Domain.name : Domain → String
  | .real => "real"
  | .integer => "integer"
  | .binary => "binary"

/-- The domain of a word. -/
def Domain.ofName? (word : Text) : Option Domain :=
  [Domain.real, .integer, .binary].find? fun d => Text.ofString d.name = word

/-- An unknown of the program. -/
structure Variable (R : Type) where
  /-- The identity of the variable. -/
  id : Nat
  name : Text
  domain : Domain
  /-- The least value; none if there is no bound. -/
  minimum? : Option (Number R)
  /-- The greatest value; none if there is no bound. -/
  maximum? : Option (Number R)
deriving DecidableEq, Repr

namespace Variable

variable {R : Type} [Scalar R]

/-- A variable as declared; a binary one has the bounds 0 and 1 unless others are given. -/
def declare (id : Nat) (name : Text) (domain : Domain)
    (minimum? maximum? : Option (Number R)) : Variable R :=
  match domain with
  | .binary =>
    ⟨id, name, .binary, some (minimum?.getD (.real 0)), some (maximum?.getD (.real 1))⟩
  | d => ⟨id, name, d, minimum?, maximum?⟩

/-- Whether the variable takes whole values only. -/
def isIntegral (v : Variable R) : Bool :=
  v.domain ≠ .real

/-- Whether the bounds are 0 and 1. -/
def hasUnitBounds (v : Variable R) : Bool :=
  v.minimum?.any (·.equals (.int 0)) && v.maximum?.any (·.equals (.int 1))

/-- Whole values between 0 and 1 make a variable binary, whatever domain it was
declared with. -/
def isBinary (v : Variable R) : Bool :=
  v.isIntegral && v.hasUnitBounds

end Variable

end LinearProgram
