import Mathlib
import LinearProgram.Proofs.Mps.Entry
import LinearProgram.Proofs.Mps.Line
/-!
# The numbers in the model file

`Model.numbers` lists what the model file has numbers for: the factors that are not zero and the
right-hand sides.  The main statement is `exists_card_number?_iff`: the texts of these numbers are
what is read off the lines, and nothing else is.  Line by line this is known first of the numbers
that were put there (`exists_number?_iff`).  So every line is written as `Line.IsWritten` asks,
whatever the model is (`isWritten_of_mem_fileLines`), and what was put there is what is read.
-/
namespace LinearProgram

/-- The numbers that the model file holds: factors that are not zero, and right-hand sides. -/
def Model.numbers (m : Model Float) : List (Number Float) :=
  (m.terms.filter (!·.factor.isZero)).map (·.factor) ++
    m.constraints.map fun c => .real c.constraint.rightHandSide

namespace Mps

variable {m : Model Float} {l : Line} {t : List Char}

/-! ## Section by section -/

theorem number?_of_mem_rowLines (h : l ∈ rowLines m) : l.number? = none := by
  simp only [rowLines, List.cons_append, List.mem_cons, List.mem_append, List.mem_map] at h
  obtain rfl | ⟨_, _, rfl⟩ | ⟨_, _, rfl⟩ := h
  · rfl
  · rfl
  · rfl

theorem number?_of_mem_boundLines (h : l ∈ boundLines m) : l.number? = none := by
  obtain rfl | h := List.mem_cons.mp h
  · rfl
  · obtain ⟨_, _, rfl⟩ := List.mem_map.mp h
    rfl

/-- Each entry of a column has a line in its block, or a number that cannot be written. -/
theorem entry_mem_columnBlock (i : Nat) (v : Variable Float) {es : List (Row × Number Float)}
    {e : Row × Number Float} (he : e ∈ es) :
    (numberText? e.2).map (.entry i e.1) ∈ columnBlock i v es := by
  have hmem : (numberText? e.2).map (.entry i e.1) ∈
      es.map fun e => (numberText? e.2).map (Line.entry i e.1) := List.mem_map_of_mem he
  have hne : es ≠ [] := List.ne_nil_of_mem he
  unfold columnBlock
  split_ifs with hempty hintegral
  · exact absurd (List.isEmpty_iff.mp hempty) hne
  · exact List.mem_append_left _ (List.mem_cons_of_mem _ hmem)
  · exact hmem

/-- The numbers in the block of a column are those of its entries. -/
theorem exists_number?_columnBlock (i : Nat) (v : Variable Float)
    (es : List (Row × Number Float)) (t : List Char) :
    (∃ l, some l ∈ columnBlock i v es ∧ l.number? = some t) ↔
      ∃ e ∈ es, numberText? e.2 = some t := by
  constructor
  · rintro ⟨l, hl, hnumber⟩
    have hentry : some l ∈ es.map fun e => (numberText? e.2).map (Line.entry i e.1) := by
      unfold columnBlock at hl
      split_ifs at hl
      · cases hl
      · -- The two markers have no number.
        simp only [List.mem_cons, List.mem_append, Option.some.injEq, List.cons_append,
          List.not_mem_nil, or_false] at hl
        obtain rfl | hl | rfl := hl
        · cases hnumber
        · exact hl
        · cases hnumber
      · exact hl
    obtain ⟨e, he, hline⟩ := List.mem_map.mp hentry
    obtain ⟨u, hu, rfl⟩ := Option.map_eq_some_iff.mp hline
    obtain rfl := Option.some.inj hnumber
    exact ⟨e, he, hu⟩
  · rintro ⟨e, he, ht⟩
    have hmem := entry_mem_columnBlock i v he
    rw [ht] at hmem
    exact ⟨.entry i e.1 t, hmem, rfl⟩

/-- Each term with a factor other than zero has a line, or a number that cannot be written. -/
theorem entry_mem_columnLines {s : Term Float} (hs : s ∈ m.terms)
    (hzero : s.factor.isZero = false) :
    ∃ i row, (numberText? s.factor).map (.entry i row) ∈ columnLines m := by
  obtain ⟨f, hf, hsf⟩ := Model.mem_terms_iff.mp hs
  obtain ⟨row, hrow⟩ := Model.mem_functions_iff.mp hf
  obtain ⟨i, hi⟩ := List.mem_iff_getElem?.mp (Model.var_mem_vars hf hsf)
  have hentry : (row, s.factor) ∈ m.entriesOf s.var := by
    rw [Model.entriesOf_eq, Model.mem_entriesFor]
    exact ⟨f, hrow, s, hsf, rfl, hzero, rfl⟩
  exact ⟨i, row, List.mem_cons_of_mem _ (List.mem_flatMap.mpr
    ⟨(s.var, i), List.mem_zipIdx_iff_getElem?.mpr hi, entry_mem_columnBlock i s.var hentry⟩)⟩

theorem exists_number?_columnLines (m : Model Float) (t : List Char) :
    (∃ l, some l ∈ columnLines m ∧ l.number? = some t) ↔
      ∃ s ∈ m.terms, s.factor.isZero = false ∧ numberText? s.factor = some t := by
  constructor
  · rintro ⟨l, hl, hnumber⟩
    obtain hl | hl := List.mem_cons.mp hl
    · obtain rfl := Option.some.inj hl
      cases hnumber
    · obtain ⟨p, _, hl⟩ := List.mem_flatMap.mp hl
      obtain ⟨e, he, ht⟩ := (exists_number?_columnBlock ..).mp ⟨l, hl, hnumber⟩
      rw [Model.entriesOf_eq, Model.mem_entriesFor] at he
      obtain ⟨f, hf, s, hs, _, hzero, hfactor⟩ := he
      have hmem : f ∈ m.functions := Model.mem_functions_iff.mpr ⟨_, hf⟩
      exact ⟨s, Model.mem_terms_iff.mpr ⟨f, hmem, hs⟩, hzero, hfactor ▸ ht⟩
  · rintro ⟨s, hs, hzero, ht⟩
    obtain ⟨i, row, hmem⟩ := entry_mem_columnLines hs hzero
    rw [ht] at hmem
    exact ⟨.entry i row t, hmem, rfl⟩

theorem exists_number?_rhsLines (m : Model Float) (t : List Char) :
    (∃ l, some l ∈ rhsLines m ∧ l.number? = some t) ↔
      ∃ c ∈ m.constraints, numberText? (.real c.constraint.rightHandSide) = some t := by
  constructor
  · rintro ⟨l, hl, hnumber⟩
    obtain hl | hl := List.mem_cons.mp hl
    · obtain rfl := Option.some.inj hl
      cases hnumber
    · obtain ⟨p, hp, hline⟩ := List.mem_map.mp hl
      obtain ⟨u, hu, rfl⟩ := Option.map_eq_some_iff.mp hline
      obtain rfl := Option.some.inj hnumber
      exact ⟨p.1, List.fst_mem_of_mem_zipIdx hp, hu⟩
  · rintro ⟨c, hc, ht⟩
    obtain ⟨k, hk⟩ := List.mem_iff_getElem?.mp hc
    have hp : (c, k) ∈ m.constraints.zipIdx := List.mem_zipIdx_iff_getElem?.mpr hk
    exact ⟨.rightHandSide k t, List.mem_cons_of_mem _ (List.mem_map.mpr ⟨_, hp, by simp [ht]⟩), rfl⟩

/-! ## The file -/

/-- The numbers on the lines are those of the model, each as its text. -/
theorem exists_number?_iff (m : Model Float) (t : List Char) :
    (∃ l, some l ∈ fileLines m ∧ l.number? = some t) ↔
      ∃ k ∈ m.numbers, numberText? k = some t := by
  have hsections : (∃ l, some l ∈ fileLines m ∧ l.number? = some t) ↔
      (∃ l, some l ∈ columnLines m ∧ l.number? = some t) ∨
        ∃ l, some l ∈ rhsLines m ∧ l.number? = some t := by
    simp only [fileLines, List.mem_append, List.map_cons, List.map_nil, List.mem_cons,
      List.not_mem_nil, or_false, Option.some.injEq, List.mem_map, exists_eq_right]
    constructor
    · rintro ⟨l, (((((rfl | rfl) | hl) | hl) | hl) | hl) | rfl, hnumber⟩
      · cases hnumber
      · cases hnumber
      · rw [number?_of_mem_rowLines hl] at hnumber
        cases hnumber
      · exact .inl ⟨l, hl, hnumber⟩
      · exact .inr ⟨l, hl, hnumber⟩
      · rw [number?_of_mem_boundLines hl] at hnumber
        cases hnumber
      · cases hnumber
    · rintro (⟨l, hl, hnumber⟩ | ⟨l, hl, hnumber⟩)
      · exact ⟨l, by simp [hl], hnumber⟩
      · exact ⟨l, by simp [hl], hnumber⟩
  rw [hsections, exists_number?_columnLines, exists_number?_rhsLines]
  simp only [Model.numbers, List.mem_append, List.mem_map, List.mem_filter, Bool.not_eq_true']
  constructor
  · rintro (⟨s, hs, hzero, ht⟩ | ⟨c, hc, ht⟩)
    · exact ⟨_, .inl ⟨s, ⟨hs, hzero⟩, rfl⟩, ht⟩
    · exact ⟨_, .inr ⟨c, hc, rfl⟩, ht⟩
  · rintro ⟨_, ⟨s, ⟨hs, hzero⟩, rfl⟩ | ⟨c, hc, rfl⟩, ht⟩
    · exact .inl ⟨s, hs, hzero, ht⟩
    · exact .inr ⟨c, hc, ht⟩

/-- Every line of the file ends in a line feed, its only one. -/
theorem isWritten_of_mem_fileLines (h : some l ∈ fileLines m) : l.IsWritten := by
  intro t ht
  obtain ⟨k, _, hk⟩ := (exists_number?_iff m t).mp ⟨l, h, ht⟩
  exact isWord_of_numberText? hk

/-- The number that is read off a line of the file is the one that was put there. -/
theorem card_number?_eq (h : some l ∈ fileLines m) : l.card.number? = l.number? := by
  rw [card_eq (isWritten_of_mem_fileLines h), number?_words]

/-- **The numbers that are read off the lines are those of the model**, each as its text. -/
theorem exists_card_number?_iff (m : Model Float) (t : List Char) :
    (∃ l, some l ∈ fileLines m ∧ l.card.number? = some t) ↔
      ∃ k ∈ m.numbers, numberText? k = some t := by
  rw [← exists_number?_iff]
  exact exists_congr fun l => and_congr_right fun h => by rw [card_number?_eq h]

end Mps

end LinearProgram
