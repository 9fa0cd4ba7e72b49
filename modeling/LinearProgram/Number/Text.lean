import LinearProgram.Decimal.Fixed
import LinearProgram.Decimal.Shortest
import LinearProgram.Number
import LinearProgram.Scalar.Double
/-!
# The texts of a number

`Number.text` writes a number in full: an integer by its digits, a truth value
by its word, a double by the fewest digits that read back.  `Number.brief?` writes
six significant digits.
-/
namespace LinearProgram.Number

/-- The number in full. -/
def text : Number Float → String
  | int n => toString n
  | bool b => if b then "True" else "False"
  | real x => Decimal.shortestText x

/-- A number that may be absent. -/
def textOrNone (k? : Option (Number Float)) : String :=
  k?.elim "None" text

/-- The number with six significant digits; a truth value is written as 1 or 0. -/
def brief? (k : Number Float) : Option String :=
  k.real?.map fun x => String.ofList (Decimal.general 6 x)

end LinearProgram.Number
