import LinearProgram.Decimal.Binary
import LinearProgram.Decimal.Rounding
import LinearProgram.Text.Blank
import LinearProgram.Text.Digit
/-!
# Reading numbers from text

`integer?` reads an integer and `real?` a decimal number.  Both allow white
space around the number, a sign, digits of any script, and single underscores
between digits.  `plainReal?` is the reader for data interchange: ASCII digits
only, with a laxer rule for underscores.  A decimal is rounded once, to the
nearest double; beyond the range it becomes an infinity.
-/
namespace LinearProgram.Text

open LinearProgram.Decimal (digitCount infinity nan)

/-! ## Decimal values -/

/-- `coefficient · 10 ^ exponent` as the nearest double.  Exponents far outside
the range of doubles are answered without computing the power. -/
def realOfDecimal (coefficient : Nat) (exponent : Int) : Float :=
  let top := (digitCount coefficient : Int) + exponent
  if coefficient = 0 || top < -330 then 0.0
  else if 310 < top then infinity
  else Float.ofScientific coefficient (exponent < 0) exponent.natAbs

/-- The value of ASCII digits. -/
def digitsValue (ds : List Char) : Nat :=
  Nat.ofDigitChars 10 ds 0

/-- A sign, if there is one, and the rest. -/
def splitSign : List Char → Bool × List Char
  | '-' :: cs => (true, cs)
  | '+' :: cs => (false, cs)
  | cs => (false, cs)

/-- The exponent of a decimal, with its letter; nothing at all is exponent 0. -/
def exponent? : List Char → Option Int
  | [] => some 0
  | c :: cs =>
    if c = 'e' || c = 'E' then
      let (negative, ds) := splitSign cs
      if ds.isEmpty || !ds.all Char.isDigit then none
      else some (if negative then -(digitsValue ds : Int) else digitsValue ds)
    else none

/-- An unsigned decimal in ASCII: digits with a point anywhere among them, at
least one digit, and an exponent or none. -/
def decimal? (cs : List Char) : Option Float :=
  let whole := cs.takeWhile Char.isDigit
  let afterWhole := cs.dropWhile Char.isDigit
  let (fraction, rest) :=
    match afterWhole with
    | '.' :: more => (more.takeWhile Char.isDigit, more.dropWhile Char.isDigit)
    | more => ([], more)
  if whole.isEmpty && fraction.isEmpty then none
  else (exponent? rest).map fun e =>
    realOfDecimal (digitsValue (whole ++ fraction)) (e - fraction.length)

/-- The texts for an infinity and for NaN, in any case. -/
def named? (cs : List Char) : Option Float :=
  let word := cs.map Char.toLower
  if word = ['i', 'n', 'f'] || word = ['i', 'n', 'f', 'i', 'n', 'i', 't', 'y'] then some infinity
  else if word = ['n', 'a', 'n'] then some nan
  else none

/-- A decimal or a named value with a sign or none. -/
def signedReal? (cs : List Char) : Option Float :=
  let (negative, body) := splitSign cs
  ((named? body).or (decimal? body)).map fun x => if negative then -x else x

/-! ## Underscores -/

/-- The text without its underscores, if each stands between two digits. -/
def joinGroups (afterDigit : Bool) : List Char → Option (List Char)
  | [] => some []
  | c :: cs =>
    if c = '_' then
      match cs with
      | d :: _ => if afterDigit && d.isDigit then joinGroups false cs else none
      | [] => none
    else (joinGroups c.isDigit cs).map (c :: ·)

/-- Whether two underscores stand side by side. -/
def hasDoubledUnderscore : List Char → Bool
  | '_' :: '_' :: _ => true
  | _ :: cs => hasDoubledUnderscore cs
  | [] => false

/-! ## The readers -/

/-- Why a text is not an integer. -/
inductive IntegerFault where
  | malformed
  | tooManyDigits (count : Nat)
deriving DecidableEq, Repr

/-- The most digits an integer may have. -/
def mostIntegerDigits : Nat := 4300

/-- Reads an integer: a sign or none, then digits.  Their number is looked at before
what follows them. -/
def readInteger (cs : List Char) : Except IntegerFault Int :=
  let (negative, body) := splitSign ((trim isWhiteSpace cs).map asciiDigit)
  let run := body.takeWhile fun c => c.isDigit || c = '_'
  match joinGroups false run with
  | none => .error .malformed
  | some ds =>
    if mostIntegerDigits < ds.length then .error (.tooManyDigits ds.length)
    else if ds.isEmpty || run.length < body.length then .error .malformed
    else .ok (if negative then -(digitsValue ds : Int) else digitsValue ds)

/-- The sentence about an integer of too many digits. -/
def tooManyDigitsMessage (count : Nat) : String :=
  "Exceeds the limit (" ++ toString mostIntegerDigits ++
    " digits) for integer string conversion: value has " ++ toString count ++
    " digits; use sys.set_int_max_str_digits() to increase the limit"

/-- The integer that a text stands for. -/
def integer? (cs : List Char) : Option Int :=
  (readInteger cs).toOption

/-- The double that a text stands for. -/
def real? (cs : List Char) : Option Float :=
  (joinGroups false ((trim isWhiteSpace cs).map asciiDigit)).bind signedReal?

/-- The text without its underscores, unless one stands at an end or beside another. -/
def withoutUnderscores? (cs : List Char) : Option (List Char) :=
  if cs.head? = some '_' || cs.getLast? = some '_' || hasDoubledUnderscore cs then none
  else some (cs.filter (· ≠ '_'))

/-- The double that a text of an interchange format stands for: ASCII digits, with
either white space around the number or underscores in it, but not both. -/
def plainReal? (cs : List Char) : Option Float :=
  (signedReal? (trim isWhiteSpace cs)).or ((withoutUnderscores? cs).bind signedReal?)

end LinearProgram.Text
