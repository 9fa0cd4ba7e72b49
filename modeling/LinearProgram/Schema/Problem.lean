import LinearProgram.Json.Value
/-!
# Problems of input

A problem says where in a JSON value something is wrong and what, and shows the value that
is there.  A value is `Checked`: it is good, or it comes with all its problems in order.
-/
namespace LinearProgram

/-- A step into a JSON value. -/
inductive PathStep where
  | key (name : Text)
  | index (n : Nat)
deriving DecidableEq, Repr

/-- What is wrong at a place. -/
inductive ProblemKind where
  /-- A field that must be there is not. -/
  | missing
  /-- A field that the record does not have. -/
  | extra
  | notText
  /-- A text with surrogates, where its characters matter. -/
  | notUnicode
  /-- A text shorter than it must be. -/
  | tooShort (least : Nat)
  | notList
  | notTable
  /-- Not an object, where a record of a class is wanted. -/
  | notRecord (className : String)
  /-- Not an object, where a record is wanted whose class is not named. -/
  | notFields
  /-- None of the words that are allowed. -/
  | notChoice (words : List String)
  | notNumber
  /-- A text that does not read as a number. -/
  | notNumeral
  | notTruth
  /-- A value that does not read as a truth value. -/
  | unclearTruth
  /-- A text that is not JSON. -/
  | notJson
deriving DecidableEq, Repr

/-- Words in single quotes, with commas between them and `or` before the last. -/
def alternatives (words : List String) : String :=
  let quote (w : String) : String := "'" ++ w ++ "'"
  match words.reverse with
  | [] => ""
  | [w] => quote w
  | w :: ws => ", ".intercalate (ws.reverse.map quote) ++ " or " ++ quote w

namespace ProblemKind

/-- The code of a problem. -/
def code : ProblemKind → String
  | missing => "missing"
  | extra => "extra_forbidden"
  | notText => "string_type"
  | notUnicode => "string_unicode"
  | tooShort _ => "string_too_short"
  | notList => "list_type"
  | notTable => "dict_type"
  | notRecord _ => "model_type"
  | notFields => "model_attributes_type"
  | notChoice _ => "enum"
  | notNumber => "float_type"
  | notNumeral => "float_parsing"
  | notTruth => "bool_type"
  | unclearTruth => "bool_parsing"
  | notJson => "json_invalid"

/-- The sentence for a problem. -/
def message : ProblemKind → String
  | missing => "Field required"
  | extra => "Extra inputs are not permitted"
  | notText => "Input should be a valid string"
  | notUnicode =>
    "Input should be a valid string, unable to parse raw data as a unicode string"
  | tooShort least =>
    "String should have at least " ++ toString least ++ " character" ++
      (if least = 1 then "" else "s")
  | notList => "Input should be a valid list"
  | notTable => "Input should be a valid dictionary"
  | notRecord className => "Input should be a valid dictionary or instance of " ++ className
  | notFields => "Input should be a valid dictionary or object to extract fields from"
  | notChoice words => "Input should be " ++ alternatives words
  | notNumber => "Input should be a valid number"
  | notNumeral => "Input should be a valid number, unable to parse string as a number"
  | notTruth => "Input should be a valid boolean"
  | unclearTruth => "Input should be a valid boolean, unable to interpret input"
  | notJson => "JSON decode error"

end ProblemKind

/-- A problem with its place. -/
structure Problem where
  path : List PathStep
  kind : ProblemKind
  /-- The value with the problem; of a missing field, the object that misses it. -/
  input : Json
deriving Repr

/-- A good value, or all the problems of a bad one. -/
abbrev Checked (α : Type) := Except (List Problem) α

namespace Checked

variable {α β : Type}

/-- A value with one problem, at the place itself. -/
def wrong (kind : ProblemKind) (input : Json) : Checked α :=
  .error [⟨[], kind, input⟩]

/-- The same value seen from one step further out. -/
def under (step : PathStep) : Checked α → Checked α
  | .ok a => .ok a
  | .error ps => .error (ps.map fun p => { p with path := step :: p.path })

/-- Two values together, with the problems of the first before those of the second. -/
def both : Checked α → Checked β → Checked (α × β)
  | .ok a, .ok b => .ok (a, b)
  | .ok _, .error qs => .error qs
  | .error ps, .ok _ => .error ps
  | .error ps, .error qs => .error (ps ++ qs)

/-- The values of a list together. -/
def all : List (Checked α) → Checked (List α)
  | [] => .ok []
  | a :: as => (both a (all as)).map fun p => p.1 :: p.2

end Checked

end LinearProgram
