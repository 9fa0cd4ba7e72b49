import Mathlib
import LinearProgram.Mps.Line
import LinearProgram.Proofs.Decimal.Significant
import LinearProgram.Proofs.Text.Numeral
/-!
# The words of a line of the model file

Every line of the model file is cut at blanks into known words, and its line feed is
its last character and its only one.  `Line.words` spells the words out, as the format has
them, and `card_eq` says that they are read off the text.

For this a name and a number have to be words: names are a letter and digits
(`columnName_eq`, `rowName_eq`), numbers are digits, a point, signs and letters
(`isWord_of_numberText?`).  Positions can be read back from names, so names of
different positions differ, whatever their width.
-/
namespace LinearProgram.Mps

open LinearProgram.Text
open LinearProgram.Decimal (padded scientific scientificText exponentText rounded significant
  rounded_digits digits Reading reading)

/-! ## Names -/

/-- The name of a column: an X and its position in seven digits, or more where it needs more. -/
def columnWord (i : Nat) : List Char := 'X' :: (Nat.toDigits 10 i).leftpad 7 '0'

/-- The name of the row of a constraint. -/
def rowWord (k : Nat) : List Char := 'C' :: (Nat.toDigits 10 k).leftpad 7 '0'

/-- The name of the objective's row. -/
def objectiveName : List Char := ['O', 'B', 'J']

/-- The name of a row, without the blanks that fill it up. -/
def Row.word : Row → List Char
  | .constraint k => rowWord k
  | .objective => objectiveName

theorem columnName_eq (k : Nat) : columnName k = columnWord k := by
  rw [columnName, position, if_neg (by omega), Int.toNat_natCast]
  rfl

theorem rowName_eq (k : Nat) : rowName k = rowWord k := by
  rw [rowName, position, if_neg (by omega), Int.toNat_natCast]
  rfl

theorem padded_injective {width j k : Nat} (h : padded width j = padded width k) : j = k := by
  rw [← digitsValue_padded width j, h, digitsValue_padded]

theorem columnWord_injective {j k : Nat} (h : columnWord j = columnWord k) : j = k :=
  padded_injective (List.cons.inj h).2

theorem rowWord_injective {j k : Nat} (h : rowWord j = rowWord k) : j = k :=
  padded_injective (List.cons.inj h).2

theorem isWord_cons_padded {c : Char} (hc : isBlank c = false) (width k : Nat) :
    IsWord (c :: padded width k) := by
  refine ⟨List.cons_ne_nil _ _, fun d hd => ?_⟩
  rcases List.mem_cons.mp hd with rfl | hd
  · exact hc
  · exact isBlank_of_isDigit (isDigit_of_mem_padded hd)

theorem isWord_columnWord (k : Nat) : IsWord (columnWord k) :=
  isWord_cons_padded (by decide) 7 k

theorem isWord_rowWord (k : Nat) : IsWord (rowWord k) :=
  isWord_cons_padded (by decide) 7 k

theorem rowWord_ne_objectiveName (k : Nat) : rowWord k ≠ objectiveName := by
  simp [rowWord, objectiveName]

theorem rowWord_ne_columnWord (j k : Nat) : rowWord j ≠ columnWord k := by
  simp [rowWord, columnWord]

/-- Different rows have different names. -/
theorem Row.word_injective {r s : Row} (h : Row.word r = Row.word s) : r = s := by
  cases r with
  | constraint j =>
    cases s with
    | constraint k => rw [rowWord_injective h]
    | objective => exact absurd h (rowWord_ne_objectiveName j)
  | objective =>
    cases s with
    | constraint k => exact absurd h.symm (rowWord_ne_objectiveName k)
    | objective => rfl

theorem Row.isWord_word (r : Row) : IsWord (Row.word r) := by
  cases r with
  | constraint k => exact isWord_rowWord k
  | objective => exact isWord_of_all (by decide) (by decide)

/-! ## Numbers -/

theorem isBlank_of_mem_exponentText {c : Char} {e : Int} (hc : c ∈ exponentText e) :
    isBlank c = false := by
  simp only [exponentText, List.mem_cons] at hc
  rcases hc with rfl | rfl | hc
  · decide
  · split <;> decide
  · exact isBlank_of_isDigit (isDigit_of_mem_padded hc)

theorem isBlank_of_mem_scientificText {c : Char} {ds : List Char} {e : Int}
    (hds : ∀ d ∈ ds, d.isDigit = true) (hc : c ∈ scientificText ds e) : isBlank c = false := by
  have hdigit : ∀ d ∈ ds, isBlank d = false := fun d hd => isBlank_of_isDigit (hds d hd)
  match ds with
  | [] => cases hc
  | [d] =>
    rcases List.mem_cons.mp hc with rfl | hc
    · exact hdigit _ (List.mem_cons_self ..)
    · exact isBlank_of_mem_exponentText hc
  | d :: d' :: ds =>
    simp only [scientificText, List.mem_cons, List.mem_append] at hc
    rcases hc with rfl | rfl | (rfl | hc) | hc
    · exact hdigit _ (List.mem_cons_self ..)
    · decide
    · exact hdigit _ (by simp)
    · exact hdigit _ (by simp [hc])
    · exact isBlank_of_mem_exponentText hc

theorem rounded_ne_nil (k m : Nat) (e : Int) : (rounded (k + 1) m e).1 ≠ [] := by
  unfold rounded
  split
  · simp
  · exact Nat.toDigits_ne_nil

/-- A double in scientific notation is a word, whatever it is. -/
theorem isWord_scientific (places : Nat) (x : Float) : IsWord (scientific places x) := by
  unfold scientific
  cases reading x with
  | nan => exact isWord_of_all (w := ['n', 'a', 'n']) (by decide) (by decide)
  | infinite negative =>
    cases negative with
    | false => exact isWord_of_all (w := ['i', 'n', 'f']) (by decide) (by decide)
    | true => exact isWord_of_all (w := ['-', 'i', 'n', 'f']) (by decide) (by decide)
  | finite negative m e =>
    constructor
    · intro hnil
      obtain ⟨_, htext⟩ := List.append_eq_nil_iff.mp hnil
      have hne := rounded_ne_nil places m e
      match hds : (rounded (places + 1) m e).1 with
      | [] => exact hne hds
      | [d] => simp [scientificText, hds] at htext
      | d :: d' :: ds => simp [scientificText, hds] at htext
    · intro c hc
      rcases List.mem_append.mp hc with hc | hc
      · cases negative with
        | true =>
          obtain rfl := List.mem_singleton.mp hc
          decide
        | false => cases hc
      · exact isBlank_of_mem_scientificText (rounded_digits _ m e) hc

/-- The text of a number is a word. -/
theorem isWord_of_numberText? {k : Number Float} {t : List Char} (h : numberText? k = some t) :
    IsWord t := by
  unfold numberText? at h
  split at h
  · obtain rfl := Option.some.inj h
    exact isWord_of_all (by decide) (by decide)
  · obtain ⟨x, _, rfl⟩ := Option.map_eq_some_iff.mp h
    exact isWord_scientific places x

/-! ## Lines -/

/-- The comment with the direction. -/
def directionWord : Optimization → List Char
  | .minimize => "*SENSE:Minimize".toList
  | .maximize => "*SENSE:Maximize".toList

/-- The letter of a comparison. -/
def comparisonWord : Comparison → List Char
  | .lte => ['L']
  | .eq => ['E']
  | .gte => ['G']

/-- A line of the file as its words. -/
abbrev Card := List (List Char)

/-- The words of a line. -/
def Line.words : Line → Card
  | sense o => [directionWord o]
  | name => ["NAME".toList, "MODEL".toList]
  | rows => ["ROWS".toList]
  | objectiveRow => ["N".toList, objectiveName]
  | constraintRow c k => [comparisonWord c, rowWord k]
  | columns => ["COLUMNS".toList]
  | marker true => ["MARK".toList, "'MARKER'".toList, "'INTORG'".toList]
  | marker false => ["MARK".toList, "'MARKER'".toList, "'INTEND'".toList]
  | entry column row number => [columnWord column, Row.word row, number]
  | rhs => ["RHS".toList]
  | rightHandSide k number => ["RHS".toList, rowWord k, number]
  | bounds => ["BOUNDS".toList]
  | binary column => ["BV".toList, "BND".toList, columnWord column]
  | endData => ["ENDATA".toList]

/-- The number on a line, if there is one. -/
def Line.number? : Line → Option (List Char)
  | entry _ _ number => some number
  | rightHandSide _ number => some number
  | _ => none

/-- The number on a card: the third word of an entry or of a right-hand side, but not of a marker
or of a bound, which have three words too. -/
def Card.number? : Card → Option (List Char)
  | [first, _, third] => if first = "MARK".toList ∨ first = "BV".toList then none else some third
  | _ => none

theorem number?_words (l : Line) : Card.number? l.words = l.number? := by
  cases l with
  | marker opens => cases opens <;> rfl
  | entry column row number =>
    simp [Line.words, Card.number?, Line.number?, columnWord]
  | _ => rfl

/-- A line whose number, if it has one, is a word. -/
def Line.IsWritten (l : Line) : Prop :=
  ∀ number ∈ l.number?, IsWord number

theorem words_append_space {w : List Char} (hw : IsWord w) (rest : List Char) :
    Text.words (w ++ ' ' :: rest) = w :: Text.words rest := by
  rw [words_append hw (endsWord_cons (by decide) _), words_space]

theorem words_append_newline {w : List Char} (hw : IsWord w) : Text.words (w ++ ['\n']) = [w] := by
  rw [words_append hw (endsWord_cons (by decide) _)]
  rfl

/-- The card that is read off the text of a line. -/
def Line.card (l : Line) : Card :=
  Text.words l.text.toList

/-! ### Texts of lines with a name or a number -/

theorem isWord_comparisonWord (c : Comparison) : IsWord (comparisonWord c) := by
  cases c <;> exact isWord_of_all (by decide) (by decide)

theorem toList_constraintRow (c : Comparison) (k : Nat) :
    (Line.constraintRow c k).text.toList
      = ' ' :: (comparisonWord c ++ ' ' :: ' ' :: (rowWord k ++ ['\n'])) := by
  have hletter : (rowLetter c).toList = comparisonWord c := by cases c <;> rfl
  show (" " ++ rowLetter c ++ "  " ++ String.ofList (rowName k) ++ "\n").toList = _
  simp [hletter, rowName_eq]

theorem toList_entry (column : Nat) (row : Row) (number : List Char) :
    (Line.entry column row number).text.toList
      = ' ' :: ' ' :: ' ' :: ' ' :: (columnWord column ++ ' ' :: ' ' ::
          ((entryRowName row).toList ++ ' ' :: ' ' :: ' ' :: (number ++ ['\n']))) := by
  show ("    " ++ String.ofList (columnName column) ++ "  " ++ entryRowName row ++ "   " ++
    String.ofList number ++ "\n").toList = _
  simp [columnName_eq]

theorem toList_rightHandSide (k : Nat) (number : List Char) :
    (Line.rightHandSide k number).text.toList
      = ' ' :: ' ' :: ' ' :: ' ' :: ('R' :: 'H' :: 'S' :: "       ".toList ++
          (rowWord k ++ ' ' :: ' ' :: ' ' :: (number ++ ['\n']))) := by
  show ("    RHS       " ++ String.ofList (rowName k) ++ "   " ++ String.ofList number ++
    "\n").toList = _
  simp [rowName_eq]

theorem toList_binary (column : Nat) :
    (Line.binary column).text.toList
      = ' ' :: ('B' :: 'V' :: ' ' :: 'B' :: 'N' :: 'D' :: "       ".toList ++
          (columnWord column ++ ['\n'])) := by
  show (" BV BND       " ++ String.ofList (columnName column) ++ "\n").toList = _
  simp [columnName_eq]

/-- The name of a row fills its field in the COLUMNS section with blanks, if it is short. -/
theorem words_entryRowName (row : Row) (rest : List Char) :
    Text.words ((entryRowName row).toList ++ ' ' :: rest) = Row.word row :: Text.words rest := by
  cases row with
  | constraint k =>
    rw [entryRowName, String.toList_ofList, rowName_eq, words_append_space (isWord_rowWord k)]
    rfl
  | objective =>
    have hname : IsWord objectiveName := Row.isWord_word .objective
    have hfield : (entryRowName .objective).toList ++ ' ' :: rest
        = objectiveName ++ ' ' :: ("     ".toList ++ rest) := by
      simp [entryRowName, objectiveName]
    rw [hfield, words_append_space hname]
    simp [Row.word]

/-- **The words of a line are read off its text.** -/
theorem card_eq {l : Line} (h : l.IsWritten) : l.card = l.words := by
  unfold Line.card
  cases l with
  | sense o => cases o <;> decide
  | name => decide
  | rows => decide
  | objectiveRow => decide
  | constraintRow c k =>
    rw [toList_constraintRow, words_space, words_append_space (isWord_comparisonWord c),
      words_space, words_append_newline (isWord_rowWord k), Line.words]
  | columns => decide
  | marker opens => cases opens <;> decide
  | entry column row number =>
    have hnumber : IsWord number := h number rfl
    rw [toList_entry]
    simp only [words_space, words_append_space (isWord_columnWord column), words_entryRowName,
      words_append_newline hnumber, Line.words]
  | rhs => decide
  | rightHandSide k number =>
    have hnumber : IsWord number := h number rfl
    have hrhs : IsWord ['R', 'H', 'S'] := isWord_of_all (by decide) (by decide)
    have hfirst := words_append_space hrhs
      ("      ".toList ++ (rowWord k ++ ' ' :: ' ' :: ' ' :: (number ++ ['\n'])))
    simp only [words_space, toList_rightHandSide]
    refine hfirst.trans ?_
    simp [words_append_space (isWord_rowWord k), words_append_newline hnumber, Line.words]
  | bounds => decide
  | binary column =>
    have hbv : IsWord ['B', 'V'] := isWord_of_all (by decide) (by decide)
    have hbnd : IsWord ['B', 'N', 'D'] := isWord_of_all (by decide) (by decide)
    have hfirst := words_append_space hbv
      ('B' :: 'N' :: 'D' :: "       ".toList ++ (columnWord column ++ ['\n']))
    have hsecond := words_append_space hbnd ("      ".toList ++ (columnWord column ++ ['\n']))
    rw [toList_binary, words_space]
    refine hfirst.trans ?_
    refine (congrArg _ hsecond).trans ?_
    simp [words_append_newline (isWord_columnWord column), Line.words]
  | endData => decide

/-- The text of a line before its line feed. -/
def Line.body (l : Line) : List Char :=
  l.text.toList.dropLast

/-- A line ends in a line feed, the only one in it. -/
theorem text_eq_body_newline {l : Line} (h : l.IsWritten) :
    l.text.toList = l.body ++ ['\n'] ∧ '\n' ∉ l.body := by
  -- It is enough to show some text without a line feed that comes before one.
  suffices hsome : ∃ body, l.text.toList = body ++ ['\n'] ∧ '\n' ∉ body by
    obtain ⟨body, htext, hbody⟩ := hsome
    have heq : l.body = body := by rw [Line.body, htext, List.dropLast_concat]
    rw [heq]
    exact ⟨htext, hbody⟩
  cases l with
  | sense o =>
    exact ⟨directionWord o, by cases o <;> decide, by cases o <;> decide⟩
  | name => exact ⟨"NAME          MODEL".toList, by decide, by decide⟩
  | rows => exact ⟨"ROWS".toList, by decide, by decide⟩
  | objectiveRow => exact ⟨" N  OBJ".toList, by decide, by decide⟩
  | constraintRow c k =>
    refine ⟨' ' :: (comparisonWord c ++ ' ' :: ' ' :: rowWord k), ?_, ?_⟩
    · simp [toList_constraintRow]
    · simp [(isWord_comparisonWord c).newline_notMem, (isWord_rowWord k).newline_notMem]
  | columns => exact ⟨"COLUMNS".toList, by decide, by decide⟩
  | marker opens =>
    cases opens with
    | true =>
      exact ⟨"    MARK      'MARKER'                 'INTORG'".toList, by decide, by decide⟩
    | false =>
      exact ⟨"    MARK      'MARKER'                 'INTEND'".toList, by decide, by decide⟩
  | entry column row number =>
    have hnumber : IsWord number := h number rfl
    have hrow : '\n' ∉ (entryRowName row).toList := by
      cases row with
      | constraint k => simpa [entryRowName, rowName_eq] using (isWord_rowWord k).newline_notMem
      | objective => decide
    refine ⟨' ' :: ' ' :: ' ' :: ' ' :: (columnWord column ++ ' ' :: ' ' ::
      ((entryRowName row).toList ++ ' ' :: ' ' :: ' ' :: number)), ?_, ?_⟩
    · simp [toList_entry]
    · simp [hrow, (isWord_columnWord column).newline_notMem, hnumber.newline_notMem]
  | rhs => exact ⟨"RHS".toList, by decide, by decide⟩
  | rightHandSide k number =>
    have hnumber : IsWord number := h number rfl
    refine ⟨"    RHS       ".toList ++ (rowWord k ++ ' ' :: ' ' :: ' ' :: number), ?_, ?_⟩
    · simp [toList_rightHandSide]
    · simp [(isWord_rowWord k).newline_notMem, hnumber.newline_notMem]
  | bounds => exact ⟨"BOUNDS".toList, by decide, by decide⟩
  | binary column =>
    refine ⟨" BV BND       ".toList ++ columnWord column, ?_, ?_⟩
    · simp [toList_binary]
    · simp [(isWord_columnWord column).newline_notMem]
  | endData => exact ⟨"ENDATA".toList, by decide, by decide⟩

/-- The words of a line are those before its line feed. -/
theorem words_body {l : Line} (h : l.IsWritten) : Text.words l.body = l.words := by
  rw [← card_eq h, Line.card, (text_eq_body_newline h).1, words_concat_blank (by decide)]

end LinearProgram.Mps
