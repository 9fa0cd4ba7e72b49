/-!
# Texts

A text is a list of code points.  Most code points are characters; the others are the
surrogates, which have no meaning and no encoding of their own, but which an escape in
JSON can name.  A text that holds one is carried along like any other until it has to
be encoded.
-/
namespace LinearProgram

/-- A code point: a character, or a surrogate by its place among them. -/
inductive CodePoint where
  | char (c : Char)
  | surrogate (place : Fin 2048)
deriving DecidableEq, Repr

namespace CodePoint

/-- The number of the first surrogate. -/
def firstSurrogate : Nat := 0xD800

/-- The number of a code point. -/
def value : CodePoint → Nat
  | char c => c.toNat
  | surrogate i => firstSurrogate + i.val

/-- The code point of a number. -/
def ofNat (n : Nat) : CodePoint :=
  if h : n - firstSurrogate < 2048 then
    if firstSurrogate ≤ n then surrogate ⟨n - firstSurrogate, h⟩ else char (Char.ofNat n)
  else char (Char.ofNat n)

/-- Whether a code point is a character of a class. -/
def isIn (p : Char → Bool) : CodePoint → Bool
  | char c => p c
  | surrogate _ => false

/-- Whether a code point is a surrogate. -/
def isSurrogate : CodePoint → Bool
  | char _ => false
  | surrogate _ => true

/-- The character, with U+FFFD in the place of a surrogate. -/
def toChar : CodePoint → Char
  | char c => c
  | surrogate _ => '\uFFFD'

instance : LT CodePoint := ⟨fun a b => a.value < b.value⟩

instance : DecidableLT CodePoint := fun a b => inferInstanceAs (Decidable (a.value < b.value))

end CodePoint

/-- A list of code points. -/
abbrev Text := List CodePoint

namespace Text

/-- Characters as a text. -/
def ofChars (cs : List Char) : Text :=
  cs.map .char

/-- The text of a string. -/
def ofString (s : String) : Text :=
  ofChars s.toList

instance : Coe String Text := ⟨ofString⟩

/-- The characters of a text, with U+FFFD in the place of each surrogate. -/
def chars (t : Text) : List Char :=
  t.map CodePoint.toChar

/-- Whether a text consists of characters. -/
def isWellFormed (t : Text) : Bool :=
  !t.any CodePoint.isSurrogate

/-- Texts one after another with a separator between them. -/
def join (separator : Text) (ts : List Text) : Text :=
  (ts.intersperse separator).flatten

/-- Whether a text comes before another one or is it, by the numbers of code points. -/
def le (s t : Text) : Bool :=
  decide (¬ t < s)

end Text

end LinearProgram
