import Mathlib
import LinearProgram.Proofs.Mps.Decoding
/-!
# Places of the model file

An entry of the model file has a place: the column and the row that it names.  A file gives one
coefficient to a variable in a row only if no place is taken twice.

The writer does not merge terms.  So the places say of a model how it was written: a place is
taken as often as the row has terms of the variable with a factor other than zero
(`count_places_ofModel`).  In the file of a normal form each place is taken once at most; the
file of `doubledModel`, where a row is `x + x`, takes one place twice.

## How the proof goes

The entries of a variable are listed constraint by constraint and then for the objective, so one
row takes its entries from one function (`count_row_entriesFor`).  Different positions give
columns different names, and rows as well, so one column takes its entries from one variable.
Both steps are the same fact about lists, `count_flatMap_zipIdx`.
-/
namespace LinearProgram

section

variable {R : Type} [Scalar R] [DecidableEq R]

theorem LinearFunction.map_fst_entriesFor (row : Row) (v : Variable R) (f : LinearFunction R) :
    (f.entriesFor row v).map (·.1) = List.replicate ((f.nonzeroTerms.map (·.var)).count v) row := by
  rw [entriesFor, List.map_map, nonzeroTerms, List.count_eq_countP, List.countP_map,
    List.countP_filter, List.countP_eq_length_filter]
  exact List.map_const' ..

/-- A variable has as many entries in a row as terms there with a factor other than zero. -/
theorem Model.count_row_entriesFor {m : Model R} {row : Row} {f : LinearFunction R}
    (hf : m.function? row = some f) (v : Variable R) :
    ((m.entriesFor v).map (·.1)).count row = (f.nonzeroTerms.map (·.var)).count v := by
  simp only [entriesFor, List.map_append, List.map_flatMap, LinearFunction.map_fst_entriesFor,
    List.count_append]
  cases row with
  | constraint k =>
    obtain ⟨c, hk, rfl⟩ := Option.map_eq_some_iff.mp hf
    have hobjective : .constraint k ∉ m.objective?.toList.flatMap fun o =>
        List.replicate ((o.function.nonzeroTerms.map (·.var)).count v) Row.objective := by
      simp [List.mem_flatMap, List.mem_replicate]
    rw [List.count_eq_zero_of_not_mem hobjective, Nat.add_zero, count_flatMap_zipIdx hk]
    · exact List.count_replicate_self
    · intro p _ hne hmem
      exact hne (Row.constraint.inj (List.eq_of_mem_replicate hmem)).symm
  | objective =>
    obtain ⟨o, ho, rfl⟩ := Option.map_eq_some_iff.mp hf
    have hconstraints : .objective ∉ m.constraints.zipIdx.flatMap fun p =>
        List.replicate ((p.1.constraint.function.nonzeroTerms.map (·.var)).count v)
          (Row.constraint p.2) := by
      simp [List.mem_flatMap, List.mem_replicate]
    rw [List.count_eq_zero_of_not_mem hconstraints, Nat.zero_add, ho, Option.toList_some,
      List.flatMap_singleton]
    exact List.count_replicate_self

end

namespace Mps

/-- The column and the row of each entry, in the order of the file. -/
def Deck.places (d : Deck) : List (List Char × List Char) :=
  d.columns.flatMap fun c => c.entries.map fun e => (c.name, e.1)

section

variable {m : Model Float}

theorem places_ofModel (m : Model Float) : (Deck.ofModel m).places
    = m.vars.zipIdx.flatMap fun p =>
        ((m.entriesFor p.1).map (·.1)).map fun row => (columnWord p.2, Row.word row) := by
  rw [Deck.places, Deck.ofModel, flatMap_filter_map]
  refine List.flatMap_congr fun p _ => ?_
  by_cases hentry : m.hasEntry p.1 = true
  · simp [hentry, DeckColumn.of, List.map_map, Function.comp_def]
  · have hempty : m.entriesFor p.1 = [] := by
      rw [← List.isEmpty_iff, m.entriesFor_isEmpty]
      simpa using hentry
    simp [hentry, hempty]

/-- The file has a place for a column and a row as often as the row has terms of the column's
variable with a factor other than zero. -/
theorem count_places_ofModel {i : Nat} {v : Variable Float} {row : Row} {f : LinearFunction Float}
    (hv : m.vars[i]? = some v) (hf : m.function? row = some f) :
    (Deck.ofModel m).places.count (columnWord i, Row.word row)
      = (f.nonzeroTerms.map (·.var)).count v := by
  have hinjective : Function.Injective fun r : Row => (columnWord i, Row.word r) := fun r s h =>
    Row.word_injective (Prod.mk.inj h).2
  rw [places_ofModel, count_flatMap_zipIdx hv, List.count_map_of_injective _ _ hinjective,
    Model.count_row_entriesFor hf]
  intro p _ hne hmem
  obtain ⟨r, _, heq⟩ := List.mem_map.mp hmem
  exact hne (columnWord_injective (Prod.mk.inj heq).1)

/-- No place is taken twice exactly if no function has two terms of one variable with factors
other than zero. -/
theorem nodup_places_ofModel_iff (m : Model Float) : (Deck.ofModel m).places.Nodup ↔
    ∀ f ∈ m.functions, (f.nonzeroTerms.map (·.var)).Nodup := by
  simp only [List.nodup_iff_count_le_one]
  constructor
  · intro h f hf v
    obtain ⟨row, hrow⟩ := Model.mem_functions_iff.mp hf
    by_cases hv : v ∈ f.nonzeroTerms.map (·.var)
    · obtain ⟨t, ht, rfl⟩ := List.mem_map.mp hv
      have hmem := Model.var_mem_vars hf (List.mem_filter.mp ht).1
      obtain ⟨i, hi⟩ := List.mem_iff_getElem?.mp hmem
      rw [← count_places_ofModel hi hrow]
      exact h _
    · rw [List.count_eq_zero_of_not_mem hv]
      exact Nat.zero_le 1
  · intro h place
    by_cases hplace : place ∈ (Deck.ofModel m).places
    · rw [places_ofModel] at hplace
      obtain ⟨p, hp, hplace⟩ := List.mem_flatMap.mp hplace
      obtain ⟨row, hrow, rfl⟩ := List.mem_map.mp hplace
      obtain ⟨e, he, rfl⟩ := List.mem_map.mp hrow
      obtain ⟨f, hf, _⟩ := Model.mem_entriesFor.mp he
      rw [count_places_ofModel (List.mem_zipIdx_iff_getElem?.mp hp) hf]
      exact h f (Model.mem_functions_iff.mpr ⟨_, hf⟩) _
    · rw [List.count_eq_zero_of_not_mem hplace]
      exact Nat.zero_le 1

/-- In the file of a normal form no place is taken twice. -/
theorem nodup_places_of_normalized? {k : Model Float} (h : k.normalized? = some m) :
    (Deck.ofModel m).places.Nodup := by
  rw [nodup_places_ofModel_iff]
  intro f hf
  have hnormal := (Model.normalized?_eq_some_iff.mp h).isNormal hf
  rw [hnormal.nonzeroTerms_eq]
  exact hnormal.nodup

end

/-- **The file has as many coefficients for a variable in a row as the row has terms of it**, not
counting factors that are zero.  It has one at most exactly if no two such terms are of one
variable; a model in normal form sees to that. -/
theorem text_places (m : Model Float) (h : ∀ t ∈ m.terms, ∃ x, t.factor.real? = some x) :
    ∃ s d, text? m = some s ∧ Deck.ofText? s.toList = some d ∧
      (∀ (i : Nat) (v : Variable Float) (row : Row) (f : LinearFunction Float),
        m.vars[i]? = some v → m.function? row = some f →
          d.places.count (columnWord i, Row.word row) = (f.nonzeroTerms.map (·.var)).count v) ∧
      (d.places.Nodup ↔ ∀ f ∈ m.functions, (f.nonzeroTerms.map (·.var)).Nodup) ∧
      ((∃ k : Model Float, k.normalized? = some m) → d.places.Nodup) := by
  obtain ⟨s, hs, hread⟩ := exists_text m h
  exact ⟨s, Deck.ofModel m, hs, hread, fun i v row f => count_places_ofModel,
    nodup_places_ofModel_iff m, fun ⟨_, hk⟩ => nodup_places_of_normalized? hk⟩

/-- The binary variable of `gapModel` stands twice in the first row and not in the objective. -/
theorem text_places_gapModel : (∀ t ∈ gapModel.terms, ∃ x, t.factor.real? = some x) ∧
    ∃ s d, text? gapModel = some s ∧ Deck.ofText? s.toList = some d ∧
      d.places.count (columnWord 2, Row.word (.constraint 0)) = 2 ∧
      d.places.count (columnWord 2, Row.word (.constraint 1)) = 1 ∧
      d.places.count (columnWord 2, Row.word .objective) = 0 := by
  obtain ⟨s, d, hs, hread, hcount, _⟩ := text_places gapModel real?_gapModel
  refine ⟨real?_gapModel, s, d, hs, hread, ?_, ?_, ?_⟩
  · exact (hcount 2 _ _ _ rfl rfl).trans (by decide +kernel)
  · exact (hcount 2 _ _ _ rfl rfl).trans (by decide +kernel)
  · exact (hcount 2 _ _ _ rfl rfl).trans (by decide +kernel)

/-- To maximise a variable of which twice is at most 4, where twice is written as a sum. -/
def doubledModel : Model Float :=
  let x : Variable Float := ⟨0, Text.ofString "x", .real, some (.real 0.0), none⟩
  { name := Text.ofString "doubled"
    objective? := some ⟨⟨[⟨x, .real 1.0⟩], 0.0⟩, .maximize⟩
    constraints := [
      ⟨⟨⟨[⟨x, .real 1.0⟩, ⟨x, .real 1.0⟩], 0.0⟩, .lte, 4.0⟩, some (Text.ofString "cap")⟩] }

/-- The file of a model that was not normalised may give two coefficients to a variable in a row. -/
theorem not_nodup_places_doubledModel : ∃ s d, text? doubledModel = some s ∧
    Deck.ofText? s.toList = some d ∧ ¬ d.places.Nodup := by
  have hreal : ∀ t ∈ doubledModel.terms, ∃ x, t.factor.real? = some x := by
    simp [doubledModel, Model.terms, Model.functions, Number.real?]
  obtain ⟨s, hs, hread⟩ := exists_text doubledModel hreal
  refine ⟨s, _, hs, hread, ?_⟩
  rw [nodup_places_ofModel_iff]
  decide +kernel

end Mps

end LinearProgram
