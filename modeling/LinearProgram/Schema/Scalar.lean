import LinearProgram.Json.Value
import LinearProgram.Scalar.Double
import LinearProgram.Schema.Problem
import LinearProgram.Text.Numeral
/-!
# Reading texts, numbers and truth values

Input is read generously: a number may be given as an integer, a truth value or a
text, a truth value as 0 or 1 or one of the usual words.  Only texts are texts.
-/
namespace LinearProgram.Schema

/-- A text of at least a number of characters; if none is demanded, surrogates do not
matter. -/
def readText (least : Nat) : Json → Checked Text
  | .text t =>
    if least = 0 then .ok t
    else if !t.isWellFormed then .wrong .notUnicode (.text t)
    else if t.length < least then .wrong (.tooShort least) (.text t)
    else .ok t
  | j => .wrong .notText j

/-- An integer as a number, if a double can hold it; `input` is what it was given as. -/
def readInteger (n : Int) (input : Json) : Checked Float :=
  match Double.ofInt? n with
  | some x => .ok x
  | none => .wrong .notNumber input

/-- A number: any number, a truth value as 1 or 0, or a text that reads as one. -/
def readNumber : Json → Checked Float
  | .int n => readInteger n (.int n)
  | .bool b => readInteger (if b then 1 else 0) (.bool b)
  | .real x => .ok x
  | .text t =>
    if !t.isWellFormed then .wrong .notUnicode (.text t)
    else match Text.plainReal? t.chars with
      | some x => .ok x
      | none => .wrong .notNumeral (.text t)
  | j => .wrong .notNumber j

/-- The words for true. -/
def trueWords : List String := ["1", "on", "t", "true", "y", "yes"]

/-- The words for false. -/
def falseWords : List String := ["0", "off", "f", "false", "n", "no"]

/-- The integer that a finite double is, if it is one. -/
def integerValue? (x : Float) : Option Int :=
  match Decimal.exactValue? x with
  | some q => if q.den = 1 then some q.num else none
  | none => none

/-- An integer as a truth value; `input` is what it was given as. -/
def truthOfInteger (n : Int) (input : Json) : Checked Bool :=
  if n = 1 then .ok true else if n = 0 then .ok false else .wrong .unclearTruth input

/-- The integers of 64 bits start at minus this one and end before it. -/
def wordBound : Int := 0x8000000000000000

/-- A real as a truth value: it has to be an integer between the bounds of 64 bits. -/
def truthOfReal (x : Float) : Checked Bool :=
  match integerValue? x with
  | some n =>
    if -wordBound < n && n < wordBound then truthOfInteger n (.real x)
    else .wrong .notTruth (.real x)
  | none => .wrong .notTruth (.real x)

/-- A truth value: one itself, 0 or 1, or one of the words in any case.  An integer has
to be one of 64 bits. -/
def readTruth : Json → Checked Bool
  | .bool b => .ok b
  | .int n =>
    if -wordBound ≤ n && n < wordBound then truthOfInteger n (.int n)
    else .wrong .notTruth (.int n)
  | .real x => truthOfReal x
  | .text t =>
    let word := String.ofList (t.chars.map Char.toLower)
    if !t.isWellFormed then .wrong .notUnicode (.text t)
    else if trueWords.contains word then .ok true
    else if falseWords.contains word then .ok false
    else .wrong .unclearTruth (.text t)
  | j => .wrong .notTruth j

/-- One of a list of values, by its exact name. -/
def readChoice {α : Type} (choices : List α) (name : α → String) (j : Json) : Checked α :=
  match j with
  | .text t =>
    if !t.isWellFormed then .wrong .notUnicode j
    else match choices.find? (fun a => Text.ofString (name a) = t) with
      | some a => .ok a
      | none => .wrong (.notChoice (choices.map name)) j
  | _ => .wrong (.notChoice (choices.map name)) j

end LinearProgram.Schema
