import Mathlib
import LinearProgram.Cbc.SolutionFile
import LinearProgram.Proofs.Lists
import LinearProgram.Proofs.Mps.Decoding
import LinearProgram.Proofs.Mps.NumberValue
/-!
# Writer and reader agree on the columns

The model file names a column after the position of its variable, and the solution file
binds such names to values.  The two sides share nothing but these names: variables without an
entry leave gaps in the columns, and the index at the start of a line is the solver's own.

`Report` is a solution file as the solver prints it: lines that bind columns and lines about
rows, in any order.  `WrittenUnder` says whose factors the model file has under a name, as it is
read off the text of the file.  The main statement is `values_readSolution`: what is read from a
report about distinct columns of the model file is, column by column, the value printed for it
under the name of the variable written there.

## How the proof goes

What is read off the model file is known (`eq_ofModel_of_isFileOf`), so each name in it is that
of a position.  The words of a line are known (`words_columnLine`, `words_rowLine`), so a column
line states its binding and a row line none (`readBinding_columnLine`, `readBinding_rowLine`).
Positions are read back from names, which gives one answer for each column line
(`forall₂_answers`); distinct columns have distinct variables, so no answer replaces another.
-/
namespace LinearProgram.Cbc

open LinearProgram.Text (IsWord EndsWord isBlank endsWord_nil endsWord_cons isWord_of_all
  words_append words_space words_surrounded exists_word_of_integer? exists_word_of_real?)
open LinearProgram.Text (words lines integer? real? mostIntegerDigits digitsValue)
open LinearProgram.Mps (columnLetter columnWord numberText Deck DeckColumn Row.word)

/-! ## Printed lines -/

/-- A line that binds a column to a value. -/
structure ColumnLine where
  marked : Bool
  index : List Char
  column : List Char
  value : List Char
  /-- What follows the value after a blank, if anything does. -/
  more? : Option (List Char)

/-- A line about a row. -/
structure RowLine where
  marked : Bool
  index : List Char
  number : List Char
  rest : List Char

/-- The mark in front of a line. -/
def mark (marked : Bool) : List Char :=
  if marked then ['*', '*', ' '] else []

def ColumnLine.text (l : ColumnLine) : List Char :=
  mark l.marked ++ (l.index ++ ' ' :: (l.column ++ ' ' :: (l.value ++ l.more?.elim [] (' ' :: ·))))

def RowLine.text (l : RowLine) : List Char :=
  mark l.marked ++ (l.index ++ ' ' :: ('C' :: l.number ++ ' ' :: l.rest))

/-- A line with an index and a value that can be read, and with a column whose number has no
more digits than an integer may have. -/
structure ColumnLine.IsPrinted (l : ColumnLine) : Prop where
  newline_notMem : '\n' ∉ l.text
  index_integer : ∃ n, integer? l.index = some n
  value_real : ∃ x, real? l.value = some x
  column_length : l.column.length ≤ 4300 + 1

structure RowLine.IsPrinted (l : RowLine) : Prop where
  newline_notMem : '\n' ∉ l.text
  index_integer : ∃ n, integer? l.index = some n
  number_noBlank : ∀ c ∈ l.number, isBlank c = false

/-- A line of a solution file after the first. -/
inductive ReportLine where
  | column (l : ColumnLine)
  | row (l : RowLine)

namespace ReportLine

def text : ReportLine → List Char
  | column l => l.text
  | row l => l.text

def IsPrinted : ReportLine → Prop
  | column l => l.IsPrinted
  | row l => l.IsPrinted

def column? : ReportLine → Option ColumnLine
  | column l => some l
  | row _ => none

theorem IsPrinted.newline_notMem {l : ReportLine} (h : l.IsPrinted) : '\n' ∉ l.text := by
  cases l with
  | column l => exact ColumnLine.IsPrinted.newline_notMem h
  | row l => exact RowLine.IsPrinted.newline_notMem h

end ReportLine

/-- A solution file: a line with the status, and lines about columns and rows in any order. -/
structure Report where
  status : List Char
  lines : List ReportLine

namespace Report

/-- The lines that bind columns. -/
def columns (r : Report) : List ColumnLine :=
  r.lines.filterMap ReportLine.column?

/-- The text of the file: every line ends in a line feed. -/
def text (r : Report) : List Char :=
  (r.status :: r.lines.map ReportLine.text).flatMap (· ++ ['\n'])

structure IsPrinted (r : Report) : Prop where
  status : '\n' ∉ r.status
  lines : ∀ l ∈ r.lines, l.IsPrinted

end Report

/-! ## Who is written where -/

/-- The content of the file of a model, as it is read off the written text. -/
def IsFileOf (d : Deck) (m : Model Float) : Prop :=
  ∃ s, Mps.text? m = some s ∧ Deck.ofText? s.toList = some d

/-- A name that occurs in the section COLUMNS of the file of a model. -/
def OccursAsColumn (m : Model Float) (name : List Char) : Prop :=
  ∃ d, IsFileOf d m ∧ name ∈ d.columns.map (·.name)

/-- The variable whose factors the file has under a name.  The columns of the file belong to the
variables that have a factor other than zero, one after another, and the column of that name has
the factors of this variable. -/
def WrittenUnder (m : Model Float) (v : Variable Float) (name : List Char) : Prop :=
  ∃ (d : Deck) (k : Nat) (c : DeckColumn), IsFileOf d m ∧ d.columns[k]? = some c ∧
    c.name = name ∧ (m.vars.filter m.hasEntry)[k]? = some v ∧
    c.entries = (m.entriesFor v).map fun e => (Row.word e.1, numberText e.2)

theorem eq_ofModel_of_isFileOf {d : Deck} {m : Model Float} (h : IsFileOf d m) :
    d = Deck.ofModel m := by
  obtain ⟨s, hs, hd⟩ := h
  obtain ⟨t, ht, hread⟩ := Mps.exists_text m (Mps.real?_of_text? hs)
  obtain rfl := Option.some.inj (hs.symm.trans ht)
  exact Option.some.inj (hd.symm.trans hread)

/-- The column at a place among the columns is that of the variable at the same place among those
with a factor other than zero, and is named after its position among all variables. -/
theorem exists_var_of_column {m : Model Float} {k : Nat} {c : DeckColumn}
    (h : (Deck.ofModel m).columns[k]? = some c) :
    ∃ i v, m.vars[i]? = some v ∧ (m.vars.filter m.hasEntry)[k]? = some v ∧
      c = DeckColumn.of i v (m.entriesFor v) := by
  have hvars : m.vars.filter m.hasEntry =
      (m.vars.zipIdx.filter fun p => m.hasEntry p.1).map (·.1) := by
    conv_lhs => rw [← List.zipIdx_map_fst 0 m.vars, List.filter_map]
    rfl
  rw [Deck.ofModel, List.getElem?_map] at h
  obtain ⟨⟨v, i⟩, hp, rfl⟩ := Option.map_eq_some_iff.mp h
  have hmem : (v, i) ∈ m.vars.zipIdx := (List.mem_filter.mp (List.mem_of_getElem? hp)).1
  refine ⟨i, v, List.mem_zipIdx_iff_getElem?.mp hmem, ?_, rfl⟩
  rw [hvars, List.getElem?_map, hp]
  rfl

/-- A variable whose factors stand under a name has the position of this name. -/
theorem exists_position_of_writtenUnder {m : Model Float} {v : Variable Float} {name : List Char}
    (h : WrittenUnder m v name) : ∃ i, m.vars[i]? = some v ∧ columnWord i = name := by
  obtain ⟨d, k, c, hd, hc, rfl, hv, _⟩ := h
  obtain rfl := eq_ofModel_of_isFileOf hd
  obtain ⟨i, w, hi, hw, rfl⟩ := exists_var_of_column hc
  obtain rfl := Option.some.inj (hw.symm.trans hv)
  exact ⟨i, hi, rfl⟩

/-- A column that occurs has exactly one variable. -/
theorem exists_writtenUnder {m : Model Float} {name : List Char}
    (h : OccursAsColumn m name) :
    ∃ (i : Nat) (v : Variable Float), m.vars[i]? = some v ∧ columnWord i = name ∧
      WrittenUnder m v name ∧ ∀ w, WrittenUnder m w name → w = v := by
  obtain ⟨d, hd, hname⟩ := h
  obtain ⟨c, hc, rfl⟩ := List.mem_map.mp hname
  obtain ⟨k, hk⟩ := List.mem_iff_getElem?.mp hc
  obtain rfl := eq_ofModel_of_isFileOf hd
  obtain ⟨i, v, hi, hv, rfl⟩ := exists_var_of_column hk
  refine ⟨i, v, hi, rfl, ⟨_, k, _, hd, hk, rfl, hv, rfl⟩, fun w hw => ?_⟩
  obtain ⟨j, hj, hname⟩ := exists_position_of_writtenUnder hw
  obtain rfl := Mps.columnWord_injective hname
  exact Option.some.inj (hj.symm.trans hi)

/-! ## Words of a line -/

theorem words_mark (marked : Bool) (cs : List Char) :
    words (mark marked ++ cs) = (if marked then [['*', '*']] else []) ++ words cs := by
  cases marked with
  | false => rfl
  | true =>
    have hstars : IsWord ['*', '*'] := isWord_of_all (by decide) (by decide)
    exact words_append hstars (endsWord_cons (by decide) cs)

/-- A mark is dropped, and nothing else that an integer can be taken for. -/
theorem unmarked_mark (marked : Bool) {w : List Char} {n : Int} (hw : integer? w = some n)
    (ws : List (List Char)) :
    unmarked ((if marked then [['*', '*']] else []) ++ w :: ws) = w :: ws := by
  cases marked with
  | true => rfl
  | false =>
    have hstars : integer? ['*', '*'] = none := by decide
    have hne : w ≠ ['*', '*'] := by
      rintro rfl
      rw [hstars] at hw
      cases hw
    rw [if_neg (by decide), List.nil_append]
    unfold unmarked
    split
    · next heq => exact absurd (List.cons.inj heq).1 hne
    · rfl

/-- An integer with blanks around it is one word, which reads as an integer. -/
theorem words_index {index : List Char} (h : ∃ n, integer? index = some n) (rest : List Char) :
    ∃ w n, integer? w = some n ∧ words (index ++ ' ' :: rest) = w :: words rest := by
  obtain ⟨n, hn⟩ := h
  obtain ⟨before, w, after, rfl, hbefore, hafter, hw, hread⟩ := exists_word_of_integer? hn
  refine ⟨w, n, hread, ?_⟩
  rw [words_surrounded hbefore hw hafter (endsWord_cons (by decide) rest), words_space]

/-- A column line is cut into index, column and value, and what follows. -/
theorem words_columnLine {l : ColumnLine} (h : l.IsPrinted) (hcolumn : IsWord l.column) :
    ∃ index n value x ws, integer? index = some n ∧ real? l.value = some x ∧
      real? value = some x ∧ unmarked (words l.text) = index :: l.column :: value :: ws := by
  obtain ⟨x, hx⟩ := h.value_real
  obtain ⟨before, value, after, hvalue, hbefore, hafter, hw, hread⟩ := exists_word_of_real? hx
  obtain ⟨index, n, hn, hindex⟩ := words_index h.index_integer
    (l.column ++ ' ' :: (l.value ++ l.more?.elim [] (' ' :: ·)))
  have hmore : EndsWord (l.more?.elim [] (' ' :: ·)) := by
    cases l.more? with
    | none => exact endsWord_nil
    | some more => exact endsWord_cons (by decide) more
  refine ⟨index, n, value, x, words (l.more?.elim [] (' ' :: ·)), hn, hx, hread, ?_⟩
  rw [ColumnLine.text, words_mark, hindex, unmarked_mark _ hn,
    words_append hcolumn (endsWord_cons (by decide) _), words_space, hvalue,
    words_surrounded hbefore hw hafter hmore]

theorem words_rowLine {l : RowLine} (h : l.IsPrinted) :
    ∃ index n, integer? index = some n ∧
      unmarked (words l.text) = index :: ('C' :: l.number) :: words l.rest := by
  obtain ⟨index, n, hn, hindex⟩ := words_index h.index_integer ('C' :: l.number ++ ' ' :: l.rest)
  have hname : IsWord ('C' :: l.number) := by
    refine ⟨List.cons_ne_nil _ _, fun c hc => ?_⟩
    rcases List.mem_cons.mp hc with rfl | hc
    · decide
    · exact h.number_noBlank c hc
  refine ⟨index, n, hn, ?_⟩
  rw [RowLine.text, words_mark, hindex, unmarked_mark _ hn,
    words_append hname (endsWord_cons (by decide) _), words_space]

/-! ## Bindings of a line -/

/-- **A column line states the position of its column with its value.** -/
theorem readBinding_columnLine {l : ColumnLine} (h : l.IsPrinted) {p : Nat}
    (hp : columnWord p = l.column) :
    ∃ x, real? l.value = some x ∧ readBinding l.text = some ⟨p, x⟩ := by
  have hcolumn : IsWord l.column := hp ▸ Mps.isWord_columnWord p
  obtain ⟨index, n, value, x, ws, hn, hx, hvalue, hwords⟩ := words_columnLine h hcolumn
  have hlength : (Decimal.padded 7 p).length ≤ mostIntegerDigits := by
    have hname := h.column_length
    rw [← hp, columnWord, List.length_cons] at hname
    exact Nat.le_of_succ_le_succ hname
  have hposition : integer? (Decimal.padded 7 p) = some (p : Int) := Text.integer?_padded hlength
  refine ⟨x, hx, ?_⟩
  have hletter : columnWord p = columnLetter :: Decimal.padded 7 p := rfl
  rw [readBinding, hwords, ← hp, hletter]
  simp [hn, hposition, hvalue]

/-- A line about a row states nothing. -/
theorem readBinding_rowLine {l : RowLine} (h : l.IsPrinted) : readBinding l.text = none := by
  obtain ⟨index, n, _, hwords⟩ := words_rowLine h
  have hletter : 'C' ≠ columnLetter := by decide
  rw [readBinding, hwords]
  cases words l.rest with
  | nil => rfl
  | cons value ws => simp [hletter]

/-- A line states nothing if its first word is no integer and no mark. -/
theorem readBinding_eq_none {w : List Char} (hw : IsWord w) (hmark : w ≠ ['*', '*'])
    (hnone : integer? w = none) (rest : List Char) : readBinding (w ++ ' ' :: rest) = none := by
  rw [readBinding, words_append hw (endsWord_cons (by decide) _), words_space]
  have hunmarked : unmarked (w :: words rest) = w :: words rest := by
    unfold unmarked
    split
    · next heq => exact absurd (List.cons.inj heq).1 hmark
    · rfl
  rw [hunmarked]
  split
  · next heq =>
    rw [← (List.cons.inj heq).1, hnone]
    split <;> rfl
  · rfl

/-! ## The answers of a report -/

/-- What a column line means for a model: the one variable whose factors are written under
the column has, by its name, the value of the line. -/
def Answers (m : Model Float) (l : ColumnLine) (b : Text × Float) : Prop :=
  ∃ v, WrittenUnder m v l.column ∧ (∀ w, WrittenUnder m w l.column → w = v) ∧
    b.1 = v.name ∧ real? l.value = some b.2

/-- Line by line there is one answer for each column, and none for a row. -/
theorem forall₂_answers {m : Model Float} : ∀ {ls : List ReportLine}, (∀ l ∈ ls, l.IsPrinted) →
    (∀ l ∈ ls.filterMap ReportLine.column?, OccursAsColumn m l.column) →
      List.Forall₂ (Answers m) (ls.filterMap ReportLine.column?)
        (((ls.map ReportLine.text).filterMap readBinding).filterMap (·.resolve m.vars))
  | [], _, _ => .nil
  | .row l :: ls, hprinted, hoccurs => by
    have hrest := forall₂_answers (fun k hk => hprinted k (List.mem_cons_of_mem _ hk)) hoccurs
    have hnone : readBinding (ReportLine.row l).text = none :=
      readBinding_rowLine (hprinted _ (List.mem_cons_self ..))
    rw [List.map_cons, List.filterMap_cons_none hnone]
    exact hrest
  | .column l :: ls, hprinted, hoccurs => by
    have hcolumns : (ReportLine.column l :: ls).filterMap ReportLine.column?
        = l :: ls.filterMap ReportLine.column? := rfl
    rw [hcolumns] at hoccurs ⊢
    obtain ⟨p, v, hp, hname, hv, huniq⟩ := exists_writtenUnder (hoccurs l (List.mem_cons_self ..))
    obtain ⟨x, hx, hbinding⟩ :=
      readBinding_columnLine (hprinted (.column l) (List.mem_cons_self ..)) hname
    have hresolve : Binding.resolve m.vars ⟨p, x⟩ = some (v.name, x) := by
      simp [Binding.resolve, atPosition?, hp]
    rw [List.map_cons, List.filterMap_cons_some (b := ⟨p, x⟩) hbinding,
      List.filterMap_cons_some hresolve]
    exact .cons ⟨v, hv, huniq, rfl, hx⟩
      (forall₂_answers (fun k hk => hprinted k (List.mem_cons_of_mem _ hk))
        fun k hk => hoccurs k (List.mem_cons_of_mem _ hk))

theorem position_eq_of_name {m : Model Float} (hnames : (m.vars.map (·.name)).Nodup) {p q : Nat}
    {v w : Variable Float} (hp : m.vars[p]? = some v) (hq : m.vars[q]? = some w)
    (h : v.name = w.name) : p = q := by
  have hlt : p < (m.vars.map (·.name)).length := by
    rw [List.length_map]
    exact (List.getElem?_eq_some_iff.mp hp).1
  refine (List.getElem?_inj hlt hnames).mp ?_
  rw [List.getElem?_map, List.getElem?_map, hp, hq, Option.map_some, Option.map_some, h]

/-- Under distinct names of variables, one name is answered for one column only. -/
theorem column_of_answers {m : Model Float} (hnames : (m.vars.map (·.name)).Nodup)
    {k l : ColumnLine} {a b : Text × Float} (hk : Answers m k a) (hl : Answers m l b)
    (h : a.1 = b.1) : k.column = l.column := by
  obtain ⟨v, hkv, _, hv, _⟩ := hk
  obtain ⟨w, hlw, _, hw, _⟩ := hl
  obtain ⟨p, hp, hkname⟩ := exists_position_of_writtenUnder hkv
  obtain ⟨q, hq, hlname⟩ := exists_position_of_writtenUnder hlw
  obtain rfl := position_eq_of_name hnames hp hq (by rw [← hv, ← hw, h])
  rw [← hkname, ← hlname]

/-- The lines of a report are cut out of its text. -/
theorem bindingsOf_text {r : Report} (hstatus : '\n' ∉ r.status)
    (hlines : ∀ l ∈ r.lines, '\n' ∉ l.text) :
    bindingsOf r.text = (r.lines.map ReportLine.text).filterMap readBinding := by
  have hlines : lines r.text = (r.status :: r.lines.map ReportLine.text) ++ [[]] := by
    refine Text.lines_flatMap fun line hline => ?_
    rcases List.mem_cons.mp hline with rfl | hline
    · exact hstatus
    · obtain ⟨l, hl, rfl⟩ := List.mem_map.mp hline
      exact hlines l hl
  rw [bindingsOf, bodyLines, hlines, List.cons_append, List.tail_cons, List.dropLast_concat]

/-- **Writer and reader agree on which variable a column is.** -/
theorem values_readSolution (m : Model Float) (r : Report)
    (hnames : (m.vars.map (·.name)).Nodup) (hprinted : r.IsPrinted)
    (hdistinct : (r.columns.map (·.column)).Nodup)
    (hoccurs : ∀ l ∈ r.columns, OccursAsColumn m l.column) :
    List.Forall₂ (Answers m) r.columns (readSolution r.text m).values ∧
      ((readSolution r.text m).values.map (·.1)).Nodup := by
  have hanswers : List.Forall₂ (Answers m) r.columns
      ((bindingsOf r.text).filterMap (·.resolve m.vars)) := by
    rw [bindingsOf_text hprinted.status fun l hl => (hprinted.lines l hl).newline_notMem]
    exact forall₂_answers hprinted.lines hoccurs
  have hkeys := nodup_map_of_forall₂ hanswers
    (fun hk hl h => column_of_answers hnames hk hl h) hdistinct
  rw [readSolution, lastValues_of_nodup hkeys]
  exact ⟨hanswers, hkeys⟩

/-- A marked line about the third variable of `gapModel`, with an index that is no position. -/
def markedLine : ColumnLine :=
  ⟨true, "  -17".toList, "X0000002".toList, " 1".toList, some " 0.25".toList⟩

/-- A line about its first row. -/
def firstRowLine : RowLine :=
  ⟨false, "0".toList, "0000000".toList, "6 -0.5".toList⟩

/-- A line about its first variable. -/
def plainLine : ColumnLine :=
  ⟨false, "1_000".toList, "X0000000".toList, "4e0".toList, none⟩

def gapReport : Report where
  status := "Optimal - objective value 11.5".toList
  lines := [.column markedLine, .row firstRowLine, .column plainLine]

theorem occursAsColumn_gapModel {name : List Char}
    (h : name ∈ (Deck.ofModel Mps.gapModel).columns.map (·.name)) :
    OccursAsColumn Mps.gapModel name := by
  obtain ⟨s, hs, hread⟩ := Mps.exists_text Mps.gapModel Mps.real?_gapModel
  exact ⟨_, ⟨s, hs, hread⟩, h⟩

theorem values_readSolution_gapReport :
    (Mps.gapModel.vars.map (·.name)).Nodup ∧ gapReport.IsPrinted ∧
      (gapReport.columns.map (·.column)).Nodup ∧
      (∀ l ∈ gapReport.columns, OccursAsColumn Mps.gapModel l.column) ∧
      List.Forall₂ (Answers Mps.gapModel) gapReport.columns
        (readSolution gapReport.text Mps.gapModel).values ∧
      ((readSolution gapReport.text Mps.gapModel).values.map (·.1)).Nodup := by
  have hnames : (Mps.gapModel.vars.map (·.name)).Nodup := by decide +kernel
  have hinteger : ∀ {w : List Char}, (integer? w).isSome = true → ∃ n, integer? w = some n :=
    Option.isSome_iff_exists.mp
  have hreal : ∀ {w : List Char}, (real? w).isSome = true → ∃ x, real? w = some x :=
    Option.isSome_iff_exists.mp
  have hmarked : markedLine.IsPrinted :=
    ⟨by decide +kernel, hinteger (by decide +kernel), hreal (by decide +kernel), by decide +kernel⟩
  have hrow : firstRowLine.IsPrinted :=
    ⟨by decide +kernel, hinteger (by decide +kernel), fun c hc => by
      obtain rfl : c = '0' := by simpa [firstRowLine] using hc
      decide⟩
  have hplain : plainLine.IsPrinted :=
    ⟨by decide +kernel, hinteger (by decide +kernel), hreal (by decide +kernel), by decide +kernel⟩
  have hprinted : gapReport.IsPrinted := by
    have hlines : ∀ l ∈ [ReportLine.column markedLine, .row firstRowLine, .column plainLine],
        l.IsPrinted :=
      List.forall_mem_cons.mpr ⟨hmarked, List.forall_mem_cons.mpr
        ⟨hrow, List.forall_mem_singleton.mpr hplain⟩⟩
    exact ⟨by decide, hlines⟩
  have hdistinct : (gapReport.columns.map (·.column)).Nodup := by decide +kernel
  have hoccurs : ∀ l ∈ gapReport.columns, OccursAsColumn Mps.gapModel l.column :=
    List.forall_mem_cons.mpr ⟨occursAsColumn_gapModel (by decide +kernel),
      List.forall_mem_singleton.mpr (occursAsColumn_gapModel (by decide +kernel))⟩
  exact ⟨hnames, hprinted, hdistinct, hoccurs,
    values_readSolution Mps.gapModel gapReport hnames hprinted hdistinct hoccurs⟩

/-! ## Integers that are too long -/

/-- An index with one digit more than an integer may have. -/
def longIndex : List Char :=
  List.replicate (mostIntegerDigits + 1) '1'

/-- A report on one column, with a long index. -/
def longReport : Report where
  status := "Optimal".toList
  lines := [.column ⟨false, longIndex, "X0000000".toList, ['4'], none⟩]

/-- An index that is too long to be read loses its line, though all else is as it should be. -/
theorem not_answered_longReport :
    longIndex ≠ [] ∧ (∀ d ∈ longIndex, d.isDigit = true) ∧
      '\n' ∉ longReport.status ∧ (∀ l ∈ longReport.lines, '\n' ∉ l.text) ∧
      (Mps.gapModel.vars.map (·.name)).Nodup ∧
      (longReport.columns.map (·.column)).Nodup ∧
      (∀ l ∈ longReport.columns, OccursAsColumn Mps.gapModel l.column ∧
        ∃ x, real? l.value = some x) ∧
      ¬ List.Forall₂ (Answers Mps.gapModel) longReport.columns
        (readSolution longReport.text Mps.gapModel).values := by
  have hdigits : ∀ d ∈ longIndex, d.isDigit = true := by
    intro d hd
    obtain rfl := List.eq_of_mem_replicate hd
    decide
  have hlength : longIndex.length = mostIntegerDigits + 1 := List.length_replicate
  have hne : longIndex ≠ [] := List.ne_nil_of_length_eq_add_one hlength
  have hword : IsWord longIndex := ⟨hne, fun d hd => Text.isBlank_of_isDigit (hdigits d hd)⟩
  have hnone : integer? longIndex = none := Text.integer?_eq_none hdigits hne (by omega)
  have hstars : longIndex ≠ ['*', '*'] := by
    intro h
    exact absurd (hdigits '*' (by simp [h])) (by decide)
  have hlines : ∀ l ∈ longReport.lines, '\n' ∉ l.text := by
    have hline : ∀ {index column : List Char}, '\n' ∉ index → '\n' ∉ column →
        '\n' ∉ (ColumnLine.mk false index column ['4'] none).text := by
      intro index column hindex hcolumn
      simp [ColumnLine.text, mark, hindex, hcolumn]
    exact List.forall_mem_singleton.mpr
      (hline hword.newline_notMem (by decide))
  have hoccurs : OccursAsColumn Mps.gapModel "X0000000".toList :=
    occursAsColumn_gapModel (by decide +kernel)
  have hvalues : (readSolution longReport.text Mps.gapModel).values = [] := by
    have hbinding := readBinding_eq_none hword hstars hnone
      ("X0000000".toList ++ ' ' :: (['4'] ++ []))
    have hbindings : bindingsOf longReport.text = [] := by
      rw [bindingsOf_text (by decide) hlines]
      exact List.filterMap_cons_none hbinding
    rw [readSolution, hbindings]
    rfl
  refine ⟨hne, hdigits, by decide, hlines, by decide +kernel, by decide, ?_, ?_⟩
  · exact List.forall_mem_singleton.mpr
      ⟨hoccurs, Option.isSome_iff_exists.mp (by decide +kernel)⟩
  · rw [hvalues]
    rintro ⟨⟩

end LinearProgram.Cbc
