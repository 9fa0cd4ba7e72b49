import LinearProgram.Text.Quoted
/-!
# UTF-8

`decode` reads bytes one at a time.  A character is read when its last byte
arrives; a byte that no character continues with ends the one begun, which counts
as one fault, and is then read afresh.  `decode?` accepts only text without a
fault, `decodeLossy` puts U+FFFD in the place of each.  `encode` refuses a text with
surrogates and says where they are.
-/
namespace LinearProgram.Text.Utf8

/-- A character of which some bytes have been read. -/
structure Partial where
  /-- How many bytes are still to come. -/
  missing : Nat
  /-- The least value of the next byte. -/
  low : Nat
  /-- The greatest value of the next byte. -/
  high : Nat
  /-- The bits read so far. -/
  bits : Nat

/-- What a byte at the start of a character means. -/
inductive Lead where
  | whole (c : Char)
  | first (p : Partial)
  | fault

/-- The meaning of a first byte.  The range of the second byte excludes overlong
forms, surrogates and values beyond the last code point. -/
def lead (b : UInt8) : Lead :=
  let n := b.toNat
  if n < 0x80 then .whole (Char.ofNat n)
  else if n < 0xC2 then .fault
  else if n < 0xE0 then .first ⟨1, 0x80, 0xBF, n - 0xC0⟩
  else if n = 0xE0 then .first ⟨2, 0xA0, 0xBF, 0⟩
  else if n = 0xED then .first ⟨2, 0x80, 0x9F, 0xD⟩
  else if n < 0xF0 then .first ⟨2, 0x80, 0xBF, n - 0xE0⟩
  else if n = 0xF0 then .first ⟨3, 0x90, 0xBF, 0⟩
  else if n < 0xF4 then .first ⟨3, 0x80, 0xBF, n - 0xF0⟩
  else if n = 0xF4 then .first ⟨3, 0x80, 0x8F, 4⟩
  else .fault

/-- Whether a byte continues the character. -/
def Partial.accepts (p : Partial) (b : UInt8) : Bool :=
  p.low ≤ b.toNat && b.toNat ≤ p.high

/-- The bits of the character after one more byte. -/
def Partial.extend (p : Partial) (b : UInt8) : Nat :=
  p.bits * 64 + (b.toNat - 0x80)

/-- Reads bytes, with a character begun or none; `none` in the result is a fault. -/
def decodeFrom : Option Partial → List UInt8 → List (Option Char)
  | none, [] => []
  | some _, [] => [none]
  | none, b :: bs =>
    match lead b with
    | .whole c => some c :: decodeFrom none bs
    | .first p => decodeFrom (some p) bs
    | .fault => none :: decodeFrom none bs
  | some p, b :: bs =>
    if p.accepts b then
      if p.missing = 1 then some (Char.ofNat (p.extend b)) :: decodeFrom none bs
      else decodeFrom (some ⟨p.missing - 1, 0x80, 0xBF, p.extend b⟩) bs
    else
      match lead b with
      | .whole c => none :: some c :: decodeFrom none bs
      | .first q => none :: decodeFrom (some q) bs
      | .fault => none :: none :: decodeFrom none bs

/-- The characters and the faults of a sequence of bytes, in order. -/
def decode (bs : List UInt8) : List (Option Char) :=
  decodeFrom none bs

/-- The text of well-formed bytes. -/
def decode? (bs : List UInt8) : Option (List Char) :=
  (decode bs).mapM id

/-- The text with U+FFFD in the place of each fault. -/
def decodeLossy (bs : List UInt8) : List Char :=
  (decode bs).map (·.getD '\uFFFD')

/-- The bytes of characters. -/
def ofChars (cs : List Char) : List UInt8 :=
  (String.ofList cs).toUTF8.toList

/-- Surrogates side by side in a text: the positions of the first and the last one, and
the first one itself. -/
structure SurrogateRun where
  first : Nat
  last : Nat
  lead : CodePoint
deriving DecidableEq, Repr

/-- The sentence about surrogates that cannot be encoded. -/
def SurrogateRun.message (r : SurrogateRun) : String :=
  if r.first = r.last then
    "'utf-8' codec can't encode character '" ++ String.ofList (escapeNumber r.lead.value) ++
      "' in position " ++ toString r.first ++ ": surrogates not allowed"
  else
    "'utf-8' codec can't encode characters in position " ++ toString r.first ++ "-" ++
      toString r.last ++ ": surrogates not allowed"

/-- The first surrogates of a text that are not of a class, where `position` code points
stand before the text. -/
def surrogateRun? (allowed : CodePoint → Bool) (position : Nat) : Text → Option SurrogateRun
  | [] => none
  | p :: ps =>
    if p.isSurrogate && !allowed p then
      some ⟨position, position + (ps.takeWhile CodePoint.isSurrogate).length, p⟩
    else surrogateRun? allowed (position + 1) ps

/-- The bytes of a text, or the surrogates that have none. -/
def encode (t : Text) : Except SurrogateRun (List UInt8) :=
  match surrogateRun? (fun _ => false) 0 t with
  | some r => .error r
  | none => .ok (ofChars t.chars)

/-- The surrogates that stand for single bytes in the texts of the system. -/
def standsForByte (p : CodePoint) : Bool :=
  0xDC80 ≤ p.value && p.value ≤ 0xDCFF

end LinearProgram.Text.Utf8
