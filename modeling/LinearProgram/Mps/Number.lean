import LinearProgram.Number.Text
/-!
# Numbers in the model file

A number is written in scientific notation with twelve digits after the point,
rounded once from its exact value as a double.  The number 1, the most frequent
one, has its text ready.
-/
namespace LinearProgram.Mps

/-- Digits after the point. -/
def places : Nat := 12

/-- The text of the number 1. -/
def oneText : List Char :=
  ['1', '.', '0', '0', '0', '0', '0', '0', '0', '0', '0', '0', '0', '0', 'e', '+', '0', '0']

/-- The text of a number; none when it is an integer too large to be a double. -/
def numberText? (k : Number Float) : Option (List Char) :=
  if k.equals (.int 1) then some oneText
  else k.real?.map (Decimal.scientific places)

end LinearProgram.Mps
