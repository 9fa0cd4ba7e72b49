import LinearProgram.Text.Utf8
/-!
# The encodings of Unicode

Bytes may be text in one of five encodings.  `Encoding.ofBytes` tells which one from the
zeros among the first bytes, taking the text to start with two characters of ASCII, and
`Encoding.decode?` reads the bytes.  In the wide encodings a surrogate without its partner
is read as such.
-/
namespace LinearProgram.Text

/-- An encoding; in the wide ones the more significant byte comes first or last. -/
inductive Encoding where
  | utf8
  | utf16 (bigEndian : Bool)
  | utf32 (bigEndian : Bool)
deriving DecidableEq, Repr

namespace Encoding

/-- The encoding of a text in ASCII, from its first bytes. -/
def ofBytes : List UInt8 → Encoding
  | [a, b] => if a = 0 then utf16 true else if b = 0 then utf16 false else utf8
  | a :: b :: c :: d :: _ =>
    if a = 0 then if b = 0 then utf32 true else utf16 true
    else if b = 0 then if c = 0 && d = 0 then utf32 false else utf16 false
    else utf8
  | _ => utf8

/-- The number of bytes of a base of 256, the most significant one first. -/
def number (bytes : List UInt8) : Nat :=
  bytes.foldl (fun n b => n * 256 + b.toNat) 0

/-- The units of two bytes each, if the bytes come out even. -/
def pairs? (bigEndian : Bool) : List UInt8 → Option (List Nat)
  | [] => some []
  | a :: b :: rest =>
    (pairs? bigEndian rest).map (number (if bigEndian then [a, b] else [b, a]) :: ·)
  | [_] => none

/-- The units of four bytes each, if the bytes come out even. -/
def quadruples? (bigEndian : Bool) : List UInt8 → Option (List Nat)
  | [] => some []
  | a :: b :: c :: d :: rest =>
    (quadruples? bigEndian rest).map
      (number (if bigEndian then [a, b, c, d] else [d, c, b, a]) :: ·)
  | _ => none

/-- Whether a unit is the first of a surrogate pair. -/
def isHigh (n : Nat) : Bool := 0xD800 ≤ n && n ≤ 0xDBFF

/-- Whether a unit is the second of a surrogate pair. -/
def isLow (n : Nat) : Bool := 0xDC00 ≤ n && n ≤ 0xDFFF

/-- The character of a surrogate pair. -/
def pairPoint (high low : Nat) : CodePoint :=
  .ofNat (0x10000 + (high - 0xD800) * 0x400 + (low - 0xDC00))

/-- The text of units of UTF-16. -/
def ofUnits : List Nat → Text
  | high :: low :: rest =>
    if isHigh high && isLow low then pairPoint high low :: ofUnits rest
    else .ofNat high :: ofUnits (low :: rest)
  | [n] => [.ofNat n]
  | [] => []

/-- The text of bytes, if they are one. -/
def decode? : Encoding → List UInt8 → Option Text
  | utf8, bytes => (Utf8.decode? bytes).map ofChars
  | utf16 bigEndian, bytes => (pairs? bigEndian bytes).map ofUnits
  | utf32 bigEndian, bytes =>
    (quadruples? bigEndian bytes).bind fun ns =>
      if ns.all (· < 0x110000) then some (ns.map .ofNat) else none

end Encoding

end LinearProgram.Text
