import LinearProgram.Decimal.Layout
/-!
# Names of columns and rows

In the model file a column is named by the position of its variable and a row by
the position of its constraint, in at least seven characters, so nothing that a
user chose reaches the file.
-/
namespace LinearProgram.Mps

/-- A position in at least seven characters, the sign among them. -/
def position (index : Int) : List Char :=
  if index < 0 then '-' :: Decimal.padded 6 index.natAbs
  else Decimal.padded 7 index.toNat

/-- The letter that column names start with. -/
def columnLetter : Char := 'X'

/-- The name of a column. -/
def columnName (index : Int) : List Char :=
  columnLetter :: position index

/-- The name of the row of a constraint. -/
def rowName (index : Int) : List Char :=
  'C' :: position index

end LinearProgram.Mps
