/-!
# White space and the cutting of text

Two classes of characters separate words: `isWhiteSpace` is the Unicode property
White_Space, `isBlank` adds the four information separators U+001C to U+001F.
`trim` cuts a class off both ends, `words` cuts a line at blanks, `lines` cuts a
text at line feeds.
-/
namespace LinearProgram.Text

/-- The characters with the Unicode property White_Space. -/
def isWhiteSpace (c : Char) : Bool :=
  let n := c.toNat
  (0x09 ≤ n && n ≤ 0x0D) || n = 0x20 || n = 0x85 || n = 0xA0 || n = 0x1680
    || (0x2000 ≤ n && n ≤ 0x200A) || n = 0x2028 || n = 0x2029 || n = 0x202F
    || n = 0x205F || n = 0x3000

/-- White space and the information separators. -/
def isBlank (c : Char) : Bool :=
  isWhiteSpace c || (0x1C ≤ c.toNat && c.toNat ≤ 0x1F)

/-- The text without the characters of a class at its two ends. -/
def trim (p : Char → Bool) (cs : List Char) : List Char :=
  ((cs.dropWhile p).reverse.dropWhile p).reverse

/-- A word that has been read so far, as a list of at most one. -/
def flush (word : List Char) : List (List Char) :=
  if word.isEmpty then [] else [word.reverse]

/-- The words of a line, where `word` holds the letters of the first one that
were read already, last letter first. -/
def wordsFrom (word : List Char) : List Char → List (List Char)
  | [] => flush word
  | c :: cs => if isBlank c then flush word ++ wordsFrom [] cs else wordsFrom (c :: word) cs

/-- The maximal runs of characters that are not blank. -/
def words (cs : List Char) : List (List Char) :=
  wordsFrom [] cs

/-- The pieces of a text between its line feeds; the last one is what follows the
last line feed, so there is always one. -/
def lines : List Char → List (List Char)
  | [] => [[]]
  | c :: cs =>
    if c = '\n' then [] :: lines cs
    else match lines cs with
      | [] => [[c]]
      | l :: ls => (c :: l) :: ls

/-- Every line end, a carriage return with or without a line feed, as a line feed. -/
def unifyLineEnds : List Char → List Char
  | '\r' :: '\n' :: cs => '\n' :: unifyLineEnds cs
  | '\r' :: cs => '\n' :: unifyLineEnds cs
  | c :: cs => c :: unifyLineEnds cs
  | [] => []

end LinearProgram.Text
