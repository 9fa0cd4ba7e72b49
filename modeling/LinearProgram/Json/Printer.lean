import LinearProgram.Decimal.Shortest
import LinearProgram.Json.Value
import LinearProgram.Text.Quoted
/-!
# Writing JSON

A value is written on one line without spaces.  In a string the quote, the backslash, the
control characters and the surrogates are escaped; every other character stands as it is.
-/
namespace LinearProgram.Json

/-- An escape by the number of a unit. -/
def escapeUnit (n : Nat) : List Char :=
  '\\' :: 'u' :: Text.hexPadded 4 n

/-- One code point as it stands in a string. -/
def escape : CodePoint → List Char
  | .char c =>
    if c = '"' || c = '\\' then ['\\', c]
    else if c.toNat < 0x20 then escapeUnit c.toNat
    else [c]
  | .surrogate i => escapeUnit (CodePoint.surrogate i).value

/-- A text as a string. -/
def printText (t : Text) : String :=
  String.ofList ('"' :: (t.flatMap escape ++ ['"']))

/-- A real, with the words for an infinity and for NaN. -/
def printReal (x : Float) : String :=
  match Decimal.reading x with
  | .nan => "NaN"
  | .infinite negative => if negative then "-Infinity" else "Infinity"
  | .finite .. => Decimal.shortestText x

mutual

/-- The text of a value. -/
def print : Json → String
  | .null => "null"
  | .bool b => if b then "true" else "false"
  | .int n => toString n
  | .real x => printReal x
  | .text t => printText t
  | .array items => "[" ++ ",".intercalate (printItems items) ++ "]"
  | .object fields => "\x7b" ++ ",".intercalate (printFields fields) ++ "\x7d"

/-- The texts of the items of an array. -/
def printItems : List Json → List String
  | [] => []
  | j :: js => j.print :: printItems js

/-- The texts of the fields of an object. -/
def printFields : List (Text × Json) → List String
  | [] => []
  | (k, j) :: fs => (printText k ++ ":" ++ j.print) :: printFields fs

end

end LinearProgram.Json
