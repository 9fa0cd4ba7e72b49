import LinearProgram.Text
import LinearProgram.Text.Printable
/-!
# Quoted text

A text between quotes: single quotes, or double quotes when it holds a single
quote and no double one.  The backslash, the quote and the three common control
characters have short escapes, any other character that is not printable is
written by its number in two, four or eight hexadecimal digits, and so is every
surrogate.
-/
namespace LinearProgram.Text

/-- A number in hexadecimal, padded to a width. -/
def hexPadded (width n : Nat) : List Char :=
  (Nat.toDigits 16 n).leftpad width '0'

/-- A code point by its number. -/
def escapeNumber (n : Nat) : List Char :=
  if n < 0x100 then '\\' :: 'x' :: hexPadded 2 n
  else if n < 0x10000 then '\\' :: 'u' :: hexPadded 4 n
  else '\\' :: 'U' :: hexPadded 8 n

/-- One code point as it stands between quotes. -/
def escape (quote : Char) : CodePoint → List Char
  | .char c =>
    if c = '\\' || c = quote then ['\\', c]
    else if c = '\n' then ['\\', 'n']
    else if c = '\r' then ['\\', 'r']
    else if c = '\t' then ['\\', 't']
    else if isPrintable c then [c]
    else escapeNumber c.toNat
  | .surrogate i => escapeNumber (CodePoint.surrogate i).value

/-- The quote that surrounds a text. -/
def quoteFor (t : Text) : Char :=
  if t.contains (.char '\'') && !t.contains (.char '"') then '"' else '\''

/-- The text between quotes. -/
def quoted (t : Text) : Text :=
  let quote := quoteFor t
  ofChars (quote :: (t.flatMap (escape quote) ++ [quote]))

/-- A list of texts, each quoted, in brackets. -/
def quotedList (ts : List Text) : Text :=
  "[" ++ join ", " (ts.map quoted) ++ "]"

end LinearProgram.Text
