import LinearProgram.Text.Numeral
import LinearProgram.Text.Utf8
/-!
# Addresses

A request is sent to an address: a path, perhaps with a scheme, a host and a port before it
and a query and a fragment after it.  `pathOf` is the path that the address asks for, with
its dot segments resolved and its escapes decoded.  An address is refused that is too long,
that has a control character or a surrogate, or of which a part is not what it should be.
-/
namespace LinearProgram.Service

/-- Why an address is refused. -/
inductive AddressFault where
  | tooLong
  | controlCharacter (p : CodePoint) (position : Nat)
  /-- A host that looks like four numbers is not an address of four bytes. -/
  | hostNumbers (host : Text)
  | hostName (host : Text)
  | port (written : Text)
  /-- Without a host, a path may not start with two slashes. -/
  | doubledSlash
  /-- Without a host, a path may not start with a colon. -/
  | leadingColon
  | surrogate (r : Text.Utf8.SurrogateRun)
  /-- Requests are not sent under this scheme. -/
  | scheme (name : Text)
deriving DecidableEq, Repr

/-- The sentence for a fault. -/
def AddressFault.message : AddressFault → Text
  | tooLong => "URL too long"
  | controlCharacter p position =>
    "Invalid non-printable ASCII character in URL, " ++ Text.quoted [p] ++ " at position " ++
      toString position ++ "."
  | hostNumbers host => "Invalid IPv4 address: " ++ Text.quoted host
  | hostName host => "Invalid IDNA hostname: " ++ Text.quoted host
  | port written => "Invalid port: " ++ Text.quoted written
  | doubledSlash => "Relative URLs cannot have a path starting with '//'"
  | leadingColon => "Relative URLs cannot have a path starting with ':'"
  | surrogate r => r.message
  | scheme name => Text.quoted name

/-! ## Escapes -/

/-- The value of a hexadecimal digit. -/
def hexDigit? (b : UInt8) : Option UInt8 :=
  if 48 ≤ b && b ≤ 57 then some (b - 48)
  else if 65 ≤ b && b ≤ 70 then some (b - 55)
  else if 97 ≤ b && b ≤ 102 then some (b - 87)
  else none

/-- The byte that an escape at the front of bytes stands for, a percent sign before two
hexadecimal digits. -/
def escapedByte? : List UInt8 → Option UInt8
  | 37 :: a :: b :: _ => do return (← hexDigit? a) * 16 + (← hexDigit? b)
  | _ => none

/-- Bytes with every escape replaced by its byte; the first `skipped` bytes belong to an
escape that was replaced already. -/
def unescape (skipped : Nat) : List UInt8 → List UInt8
  | [] => []
  | c :: rest =>
    if 0 < skipped then unescape (skipped - 1) rest
    else match escapedByte? (c :: rest) with
      | some b => b :: unescape 2 rest
      | none => c :: unescape 0 rest

/-- A text with its escapes decoded. -/
def percentDecoded (t : Text) : Text :=
  Text.ofChars (Text.Utf8.decodeLossy (unescape 0 (Text.Utf8.ofChars t.chars)))

/-! ## Segments -/

/-- The pieces of a text between its separators. -/
def pieces (separator : CodePoint) : Text → List Text
  | [] => [[]]
  | p :: t =>
    if p = separator then [] :: pieces separator t
    else match pieces separator t with
      | [] => [[p]]
      | s :: ss => (p :: s) :: ss

/-- The pieces of a path between its slashes. -/
def segments (path : Text) : List Text :=
  pieces (.char '/') path

/-- Segments without those that stand for the place itself or the one above. -/
def withoutDots (ss : List Text) : List Text :=
  ss.foldl (fun done s =>
    if s = Text.ofString "." then done
    else if s = Text.ofString ".." then
      if done.isEmpty || done = [[]] then done else done.dropLast
    else done ++ [s]) []

/-- A path with its dot segments resolved. -/
def resolved (path : Text) : Text :=
  Text.join "/" (withoutDots (segments path))

/-! ## The parts of an address -/

/-- A scheme and the text after its colon; without a scheme, nothing and the text. -/
def splitScheme (t : Text) : Text × Text :=
  let name := t.takeWhile (CodePoint.isIn fun c =>
    c.isAlphanum || c = '+' || c = '.' || c = '-')
  match t.drop name.length with
  | .char ':' :: rest =>
    if name.head?.all (CodePoint.isIn Char.isAlpha) then (name, rest) else ([], t)
  | _ => ([], t)

/-- What stands between two slashes and the path, and the path; without the two slashes,
nothing and the text. -/
def splitAuthority : Text → Text × Text
  | .char '/' :: .char '/' :: t =>
    (t.takeWhile (· ≠ .char '/'), t.dropWhile (· ≠ .char '/'))
  | t => ([], t)

/-- A user, up to the last at sign, and the text after it. -/
def splitUser (t : Text) : Text × Text :=
  let host := (t.reverse.takeWhile (· ≠ .char '@')).reverse
  (t.take (t.length - host.length - 1), host)

/-- A host and the text after it: up to the last closing bracket if it starts with an
opening one, and to the first colon if not. -/
def splitHost (t : Text) : Text × Text :=
  if t.head? = some (.char '[') && t.contains (.char ']') then
    let rest := (t.reverse.takeWhile (· ≠ .char ']')).reverse
    (t.take (t.length - rest.length), rest)
  else (t.takeWhile (· ≠ .char ':'), t.dropWhile (· ≠ .char ':'))

/-- The parts of an address before its query; a part that is not there is empty. -/
structure AddressParts where
  scheme : Text
  user : Text
  host : Text
  port : Text
  path : Text

/-- The parts of an address without its query and its fragment. -/
def AddressParts.ofText (t : Text) : AddressParts :=
  let (scheme, afterScheme) := splitScheme t
  let (authority, path) := splitAuthority afterScheme
  let (user, hostAndPort) := splitUser authority
  let (host, port) := splitHost hostAndPort
  { scheme, user, host, path
    port := if port.head? = some (.char ':') then port.tail else port }

namespace AddressParts

/-- Whether an address says nothing before its path. -/
def isPathAlone (a : AddressParts) : Bool :=
  a.scheme.isEmpty && a.user.isEmpty && a.host.isEmpty && a.port.isEmpty

/-- Whether an address says where its path is to be found. -/
def isAbsolute (a : AddressParts) : Bool :=
  !a.scheme.isEmpty && !a.host.isEmpty

/-- The path that is asked for, which starts with a slash unless it is empty.  The path of
an address that is not absolute is found at the service itself. -/
def askedPath (a : AddressParts) : Text :=
  if a.isAbsolute then resolved a.path
  else
    let path := if a.isPathAlone then a.path else resolved a.path
    resolved (.char '/' :: path.dropWhile (· = .char '/'))

end AddressParts

/-! ## Faults of the parts -/

/-- Whether a code point is one of the ten digits of ASCII. -/
def isDigit : CodePoint → Bool :=
  CodePoint.isIn Char.isDigit

/-- Whether a text is digits and then, so many times, a code point and digits. -/
def isNumbers : Nat → Text → Bool
  | 0, t => !t.isEmpty && t.all isDigit
  | n + 1, t => (List.range t.length).any fun k =>
    0 < k && (t.take k).all isDigit && isNumbers n (t.drop (k + 1))

/-- Whether a text is a number below 256 without zeros before it. -/
def isByte (t : Text) : Bool :=
  !t.isEmpty && t.length ≤ 3 && t.all isDigit && (t.length = 1 || t.head? ≠ some (.char '0')) &&
    Text.digitsValue t.chars < 256

/-- Whether a text is four bytes with points between them. -/
def isFourBytes (t : Text) : Bool :=
  (pieces (.char '.') t).length = 4 && (pieces (.char '.') t).all isByte

/-- What is wrong with a host, if anything is. -/
def hostFault? (host : Text) : Option AddressFault :=
  if isNumbers 3 host && !isFourBytes host then some (.hostNumbers host)
  else if host.any CodePoint.isSurrogate then some (.hostName host)
  else none

/-- What is wrong with a port, if anything is. -/
def portFault? (port : Text) : Option AddressFault :=
  if port.isEmpty || (Text.integer? port.chars).isSome then none else some (.port port)

/-- What is wrong with the path of an address that says nothing before it, if anything
is. -/
def pathFault? (a : AddressParts) : Option AddressFault :=
  if !a.isPathAlone then none
  else if a.path.take 2 = Text.ofString "//" then some .doubledSlash
  else if a.path.head? = some (.char ':') then some .leadingColon
  else none

/-- The schemes that requests are sent under. -/
def schemes : List Text := ["http", "https"]

/-- A text with the capital letters of ASCII replaced by small ones. -/
def lowered (t : Text) : Text :=
  t.map fun p => .ofNat (if p.isIn Char.isUpper then p.value + 32 else p.value)

/-- What is wrong with the scheme of an absolute address, if anything is. -/
def schemeFault? (a : AddressParts) : Option AddressFault :=
  if a.isAbsolute && !schemes.contains (lowered a.scheme) then some (.scheme (lowered a.scheme))
  else none

/-- Whether a code point is a control character of ASCII. -/
def isControl : CodePoint → Bool :=
  CodePoint.isIn fun c => c.toNat < 0x20 || c.toNat = 0x7F

/-- The control character that an address is refused for, if there is one. -/
def controlFault? (address : Text) : Option AddressFault :=
  (address.find? isControl).map fun p => .controlCharacter p (address.idxOf p)

/-- The surrogate that an address is refused for, if there is one. -/
def surrogateFault? (address : Text) : Option AddressFault :=
  (address.find? CodePoint.isSurrogate).map fun p => .surrogate ⟨0, 0, p⟩

/-! ## The path of an address -/

/-- The most code points that an address may have. -/
def longestAddress : Nat := 65536

/-- Why an address is refused, if it is: what is wrong with the whole comes first, then
what is wrong with its parts. -/
def addressFault? (address : Text) (a : AddressParts) : Option AddressFault :=
  if longestAddress < address.length then some .tooLong
  else [controlFault? address, hostFault? a.host, portFault? a.port, pathFault? a,
    surrogateFault? address, schemeFault? a].findSome? id

/-- The path that an address asks for.  Its escapes are decoded twice, once by the sender
and once by the receiver. -/
def pathOf (address : Text) : Except AddressFault Text :=
  let a := AddressParts.ofText (address.takeWhile fun p => p ≠ .char '?' && p ≠ .char '#')
  match addressFault? address a with
  | some e => .error e
  | none => .ok (percentDecoded (percentDecoded a.askedPath))

end LinearProgram.Service
