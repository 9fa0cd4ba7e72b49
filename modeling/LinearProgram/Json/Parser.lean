import LinearProgram.Json.Value
import LinearProgram.Text.Encoding
import LinearProgram.Text.Numeral
/-!
# Reading JSON

The grammar is that of RFC 8259 with three more numbers, `NaN`, `Infinity` and
`-Infinity`.  An integer of more than 4300 digits is refused; another number is
rounded to a double and may become an infinity.  An escaped surrogate without its
partner is read as such.

A text that is not JSON is refused with the flaw that is met first and with what follows
it, so `ReadFault.message` can tell the place.  Arrays and objects may be nested only to a
given depth.

The parser takes a measure of what is left to do, which bounds its recursion; twice
the length of the text is always enough, because every second call consumes a
code point.
-/
namespace LinearProgram.Json

open LinearProgram.Text (Encoding digitsValue realOfDecimal mostIntegerDigits)

/-- What is wrong with a text that is not JSON. -/
inductive Flaw where
  | noValue
  | noKey
  | noColon
  | noComma
  | openString
  | controlCharacter
  | badEscape
  | badUnit
  /-- The value is followed by more. -/
  | notTheEnd
  | byteOrderMark
deriving DecidableEq, Repr

/-- The words for a flaw. -/
def Flaw.words : Flaw → String
  | noValue => "Expecting value"
  | noKey => "Expecting property name enclosed in double quotes"
  | noColon => "Expecting ':' delimiter"
  | noComma => "Expecting ',' delimiter"
  | openString => "Unterminated string starting at"
  | controlCharacter => "Invalid control character at"
  | badEscape => "Invalid \\escape"
  | badUnit => "Invalid \\uXXXX escape"
  | notTheEnd => "Extra data"
  | byteOrderMark => "Unexpected UTF-8 BOM (decode using utf-8-sig)"

/-- Why a text is not read. -/
inductive ReadFault where
  /-- A flaw, and the text from there on. -/
  | malformed (flaw : Flaw) (rest : Text)
  | oversizedInteger (digits : Nat)
  /-- An array, or else an object, is nested too deep. -/
  | tooDeep (isArray : Bool)
deriving DecidableEq, Repr

/-- A value read from the front of a text, and the rest of the text. -/
abbrev Parsed (α : Type) := Except ReadFault (α × Text)

/-! ## Places -/

/-- The words for the place in a text that a number of code points precede. -/
def placeWords (t : Text) (position : Nat) : String :=
  let before := t.take position
  let inLine := before.reverse.takeWhile (· ≠ .char '\n')
  "line " ++ toString (before.count (.char '\n') + 1) ++ " column " ++
    toString (inLine.length + 1) ++ " (char " ++ toString position ++ ")"

/-- The sentence for a fault in reading a text. -/
def ReadFault.message (t : Text) : ReadFault → String
  | malformed flaw rest => flaw.words ++ ": " ++ placeWords t (t.length - rest.length)
  | oversizedInteger digits => Text.tooManyDigitsMessage digits
  | tooDeep isArray =>
    "maximum recursion depth exceeded while decoding a JSON " ++
      (if isArray then "array" else "object") ++ " from a unicode string"

/-! ## Characters -/

/-- The text after its leading white space. -/
def skipSpace (t : Text) : Text :=
  t.dropWhile (CodePoint.isIn fun c => c = ' ' || c = '\t' || c = '\n' || c = '\r')

/-- The rest of a text that starts with a word. -/
def afterWord? : List Char → Text → Option Text
  | [], t => some t
  | w :: ws, .char c :: t => if w = c then afterWord? ws t else none
  | _ :: _, _ => none

/-- The digits at the front of a text. -/
def leadingDigits (t : Text) : List Char :=
  Text.chars (t.takeWhile (CodePoint.isIn Char.isDigit))

/-- The text after the digits at its front. -/
def afterDigits (t : Text) : Text :=
  t.dropWhile (CodePoint.isIn Char.isDigit)

/-! ## Strings -/

/-- The value of a hexadecimal digit. -/
def hexValue? : CodePoint → Option Nat
  | .surrogate _ => none
  | .char c =>
    if c.isDigit then some (c.toNat - 48)
    else if 'a' ≤ c && c ≤ 'f' then some (c.toNat - 87)
    else if 'A' ≤ c && c ≤ 'F' then some (c.toNat - 55)
    else none

/-- The unit of four hexadecimal digits at the front of a text that goes on after them,
and the rest. -/
def hexUnit? : Text → Option (Nat × Text)
  | a :: b :: c :: d :: p :: t => do
    let n := ((← hexValue? a) * 16 + (← hexValue? b)) * 256
      + (← hexValue? c) * 16 + (← hexValue? d)
    return (n, p :: t)
  | _ => none

/-- The character of a one-letter escape. -/
def escaped? : CodePoint → Option Char
  | .char '"' => some '"'
  | .char '\\' => some '\\'
  | .char '/' => some '/'
  | .char 'b' => some '\x08'
  | .char 'f' => some '\x0c'
  | .char 'n' => some '\n'
  | .char 'r' => some '\r'
  | .char 't' => some '\t'
  | _ => none

/-- The second unit of a surrogate pair, if an escape stands at the front of a text that
goes on after it, and the rest; a fault if the escape is none. -/
def secondUnit? : Text → Except ReadFault (Option (Nat × Text))
  | .char '\\' :: .char 'u' :: more =>
    if more.length < 5 then .ok none
    else match hexUnit? more with
      | some r => .ok (some r)
      | none => .error (.malformed .badUnit (.char 'u' :: more))
  | _ => .ok none

/-- The code point of an escape by units, after the first `u`, and the rest. -/
def unicodeEscape (t : Text) : Parsed CodePoint :=
  match hexUnit? t with
  | none => .error (.malformed .badUnit (.char 'u' :: t))
  | some (n, rest) =>
    if Encoding.isHigh n then
      match secondUnit? rest with
      | .error e => .error e
      | .ok (some (low, after)) =>
        if Encoding.isLow low then .ok (Encoding.pairPoint n low, after)
        else .ok (.ofNat n, rest)
      | .ok none => .ok (.ofNat n, rest)
    else .ok (.ofNat n, rest)

/-- The text of a string up to its closing quote, and the rest; `opening` is the text
from the opening quote on and `done` what was read already, in reverse. -/
def stringBody (opening : Text) : Nat → Text → Text → Parsed Text
  | 0, _, _ => .error (.malformed .openString opening)
  | _ + 1, _, [] => .error (.malformed .openString opening)
  | fuel + 1, done, p :: t =>
    if p = .char '"' then .ok (done.reverse, t)
    else if p = .char '\\' then
      match t with
      | .char 'u' :: more =>
        match unicodeEscape more with
        | .error e => .error e
        | .ok (q, rest) => stringBody opening fuel (q :: done) rest
      | e :: rest =>
        match escaped? e with
        | some c => stringBody opening fuel (.char c :: done) rest
        | none => .error (.malformed .badEscape (p :: t))
      | [] => .error (.malformed .openString opening)
    else if p.value < 0x20 then .error (.malformed .controlCharacter (p :: t))
    else stringBody opening fuel (p :: done) t

/-- A string after its opening quote, and the rest. -/
def string (t : Text) : Parsed Text :=
  stringBody (.char '"' :: t) (t.length + 1) [] t

/-! ## Numbers -/

/-- The digits of a fraction at the front of a text, if a point with a digit after
it is there, and the rest. -/
def fraction (t : Text) : List Char × Text :=
  match t with
  | .char '.' :: more =>
    if (leadingDigits more).isEmpty then ([], t) else (leadingDigits more, afterDigits more)
  | _ => ([], t)

/-- A sign at the front of a text, and the rest. -/
def sign : Text → Bool × Text
  | .char '-' :: t => (true, t)
  | .char '+' :: t => (false, t)
  | t => (false, t)

/-- The exponent at the front of a text, if there is a complete one, and the rest. -/
def exponent (t : Text) : Option Int × Text :=
  match t with
  | e :: more =>
    if e = .char 'e' || e = .char 'E' then
      let (negative, ds) := sign more
      if (leadingDigits ds).isEmpty then (none, t)
      else
        let n : Int := digitsValue (leadingDigits ds)
        (some (if negative then -n else n), afterDigits ds)
    else (none, t)
  | [] => (none, t)

/-- The digits before the point: a single zero, or digits that start with none. -/
def wholeDigits (t : Text) : List Char × Text :=
  match t with
  | .char '0' :: more => (['0'], more)
  | _ => (leadingDigits t, afterDigits t)

/-- A number without its sign, and the rest; `start` is the text from the sign on. -/
def number (start : Text) (negative : Bool) (t : Text) : Parsed Json :=
  let (whole, afterWhole) := wholeDigits t
  let (fractionDigits, afterFraction) := fraction afterWhole
  let (e?, rest) := exponent afterFraction
  if whole.isEmpty then .error (.malformed .noValue start)
  else if fractionDigits.isEmpty && e?.isNone then
    if mostIntegerDigits < whole.length then .error (.oversizedInteger whole.length)
    else
      let n : Int := digitsValue whole
      .ok (.int (if negative then -n else n), rest)
  else
    let x := realOfDecimal (digitsValue (whole ++ fractionDigits))
      (e?.getD 0 - fractionDigits.length)
    .ok (.real (if negative then -x else x), rest)

/-! ## Values -/

/-- The words that are values. -/
def literals : List (String × Json) :=
  [("null", .null), ("true", .bool true), ("false", .bool false), ("NaN", .real Decimal.nan),
    ("Infinity", .real Decimal.infinity), ("-Infinity", .real (-Decimal.infinity))]

/-- The word at the front of a text that is a value, and the rest. -/
def literal? (t : Text) : Option (Json × Text) :=
  literals.findSome? fun l => (afterWord? l.1.toList t).map fun rest => (l.2, rest)

mutual

/-- A value at the front of a text, and the rest; `room` is how deep arrays and objects
may still be nested. -/
def value (room : Nat) : Nat → Text → Parsed Json
  | 0, t => .error (.malformed .noValue t)
  | fuel + 1, t =>
    match t with
    | .char '"' :: rest => (string rest).map fun r => (.text r.1, r.2)
    | .char '[' :: rest =>
      if room = 0 then .error (.tooDeep true)
      else match skipSpace rest with
        | .char ']' :: after => .ok (.array [], after)
        | more => (items (room - 1) fuel more).map fun r => (.array r.1, r.2)
    | .char '{' :: rest =>
      if room = 0 then .error (.tooDeep false)
      else match skipSpace rest with
        | .char '}' :: after => .ok (.object [], after)
        | more => (members (room - 1) fuel more).map fun r => (.object (uniqueFields r.1), r.2)
    | _ =>
      match literal? t with
      | some r => .ok r
      | none =>
        match t with
        | .char '-' :: rest => number t true rest
        | _ => number t false t

/-- The items of an array from the first one on, up to the closing bracket. -/
def items (room : Nat) : Nat → Text → Parsed (List Json)
  | 0, t => .error (.malformed .noValue t)
  | fuel + 1, t =>
    match value room fuel t with
    | .error e => .error e
    | .ok (v, rest) =>
      match skipSpace rest with
      | .char ',' :: more => (items room fuel (skipSpace more)).map fun r => (v :: r.1, r.2)
      | .char ']' :: after => .ok ([v], after)
      | other => .error (.malformed .noComma other)

/-- The fields of an object from the first one on, up to the closing brace. -/
def members (room : Nat) : Nat → Text → Parsed (List (Text × Json))
  | 0, t => .error (.malformed .noKey t)
  | fuel + 1, t =>
    match t with
    | .char '"' :: rest =>
      match string rest with
      | .error e => .error e
      | .ok (key, afterKey) =>
        match skipSpace afterKey with
        | .char ':' :: more =>
          match value room fuel (skipSpace more) with
          | .error e => .error e
          | .ok (v, afterValue) =>
            match skipSpace afterValue with
            | .char ',' :: others =>
              (members room fuel (skipSpace others)).map fun r => ((key, v) :: r.1, r.2)
            | .char '}' :: after => .ok ([(key, v)], after)
            | other => .error (.malformed .noComma other)
        | other => .error (.malformed .noColon other)
    | other => .error (.malformed .noKey other)

end

/-- The value that a text is, with white space around it, where arrays and objects may be
nested to a depth. -/
def readNested (depth : Nat) (t : Text) : Except ReadFault Json :=
  match value depth (2 * t.length + 2) (skipSpace t) with
  | .error e => .error e
  | .ok (v, rest) =>
    match skipSpace rest with
    | [] => .ok v
    | other => .error (.malformed .notTheEnd other)

/-- The value that a text is, which may not start with a byte order mark. -/
def read (depth : Nat) (t : Text) : Except ReadFault Json :=
  if t.head? = some (.char '\uFEFF') then .error (.malformed .byteOrderMark t)
  else readNested depth t

/-- The text after a byte order mark, if it starts with one. -/
def skipMark : Text → Text
  | .char '\uFEFF' :: t => t
  | t => t

end LinearProgram.Json
