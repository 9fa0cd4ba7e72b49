import Mathlib
import LinearProgram.Mps.Entry
import LinearProgram.Proofs.NormalForm
/-!
# The entries of a variable, term by term

The writer collects the entries of all variables in one pass and groups them.
`Model.entriesFor` names those of one variable directly: its terms with a factor other than
zero, constraint rows in order and the objective last.  `entriesOf_eq` says that this is what
the writer has, and `mem_entriesFor` where an entry comes from.
-/
namespace LinearProgram

variable {R : Type}

/-! ## The functions of the rows -/

/-- The function that stands in a row. -/
def Model.function? (m : Model R) : Row → Option (LinearFunction R)
  | .constraint k => m.constraints[k]?.map (·.constraint.function)
  | .objective => m.objective?.map (·.function)

namespace Model

variable {m : Model R}

theorem mem_functions_iff {f : LinearFunction R} :
    f ∈ m.functions ↔ ∃ row, m.function? row = some f := by
  constructor
  · intro hf
    rcases List.mem_append.mp hf with hf | hf
    · exact ⟨.objective, Option.mem_toList.mp hf⟩
    · obtain ⟨c, hc, rfl⟩ := List.mem_map.mp hf
      obtain ⟨k, hk⟩ := List.mem_iff_getElem?.mp hc
      exact ⟨.constraint k, by simp [function?, hk]⟩
  · rintro ⟨row, hrow⟩
    cases row with
    | constraint k =>
      obtain ⟨c, hk, rfl⟩ := Option.map_eq_some_iff.mp hrow
      exact function_mem_functions (List.mem_of_getElem? hk)
    | objective =>
      obtain ⟨o, ho, rfl⟩ := Option.map_eq_some_iff.mp hrow
      exact objective_mem_functions ho

end Model

/-! ## The entries of a variable -/

variable [Scalar R] [DecidableEq R]

/-- The entries that a function in the given row has for a variable: its terms with a factor
other than zero, in order. -/
def LinearFunction.entriesFor (row : Row) (v : Variable R) (f : LinearFunction R) :
    List (Row × Number R) :=
  (f.terms.filter fun t => t.var = v && !t.factor.isZero).map fun t => (row, t.factor)

/-- The entries of a variable: constraint rows in order, the objective last. -/
def Model.entriesFor (m : Model R) (v : Variable R) : List (Row × Number R) :=
  m.constraints.zipIdx.flatMap (fun p => p.1.constraint.function.entriesFor (.constraint p.2) v) ++
    m.objective?.toList.flatMap (·.function.entriesFor .objective v)

/-- Whether a variable has a term with a factor other than zero. -/
def Model.hasEntry (m : Model R) (v : Variable R) : Bool :=
  m.terms.any fun t => t.var = v && !t.factor.isZero

theorem valuesOf_entries (row : Row) (v : Variable R) (f : LinearFunction R) :
    valuesOf v (f.entries row) = f.entriesFor row v :=
  valuesOf_map_filter v _ _ _ f.terms

namespace Model

variable {m : Model R}

/-- The entries that the writer collects are the terms of the variable, row by row. -/
theorem entriesOf_eq (m : Model R) (v : Variable R) : m.entriesOf v = m.entriesFor v := by
  rw [entriesOf, entries, entriesFor, valuesOf_append, valuesOf_flatMap, valuesOf_flatMap]
  simp only [valuesOf_entries]

/-- An entry of a variable is one of its terms, with a factor other than zero, in the row. -/
theorem mem_entriesFor {v : Variable R} {e : Row × Number R} :
    e ∈ m.entriesFor v ↔ ∃ f, m.function? e.1 = some f ∧
      ∃ t ∈ f.terms, t.var = v ∧ t.factor.isZero = false ∧ t.factor = e.2 := by
  obtain ⟨row, x⟩ := e
  simp only [entriesFor, LinearFunction.entriesFor, List.mem_append, List.mem_flatMap,
    List.mem_zipIdx_iff_getElem?, List.mem_map, List.mem_filter, Bool.and_eq_true,
    decide_eq_true_eq, Bool.not_eq_true', Option.mem_toList]
  constructor
  · rintro (⟨⟨c, k⟩, hk, t, ⟨ht, hvar, hzero⟩, heq⟩ | ⟨o, ho, t, ⟨ht, hvar, hzero⟩, heq⟩)
    · obtain ⟨rfl, rfl⟩ := Prod.mk.inj heq
      exact ⟨_, by simp [function?, hk], t, ht, hvar, hzero, rfl⟩
    · obtain ⟨rfl, rfl⟩ := Prod.mk.inj heq
      exact ⟨_, by simp [function?, ho], t, ht, hvar, hzero, rfl⟩
  · rintro ⟨f, hf, t, ht, hvar, hzero, rfl⟩
    cases row with
    | constraint k =>
      obtain ⟨c, hk, rfl⟩ := Option.map_eq_some_iff.mp hf
      exact .inl ⟨(c, k), hk, t, ⟨ht, hvar, hzero⟩, rfl⟩
    | objective =>
      obtain ⟨o, ho, rfl⟩ := Option.map_eq_some_iff.mp hf
      exact .inr ⟨o, ho, t, ⟨ht, hvar, hzero⟩, rfl⟩

/-- A variable has entries exactly if one of its terms has a factor other than zero. -/
theorem entriesFor_isEmpty (m : Model R) (v : Variable R) :
    (m.entriesFor v).isEmpty = !m.hasEntry v := by
  rw [Bool.eq_iff_iff, List.isEmpty_iff, List.eq_nil_iff_forall_not_mem, Bool.not_eq_true',
    hasEntry, List.any_eq_false]
  constructor
  · intro h t ht hentry
    obtain ⟨hvar, hzero⟩ : t.var = v ∧ t.factor.isZero = false := by simpa using hentry
    obtain ⟨f, hf, ht⟩ := mem_terms_iff.mp ht
    obtain ⟨row, hrow⟩ := mem_functions_iff.mp hf
    exact h (row, t.factor) (mem_entriesFor.mpr ⟨f, hrow, t, ht, hvar, hzero, rfl⟩)
  · intro h e he
    obtain ⟨f, hf, t, ht, hvar, hzero, _⟩ := mem_entriesFor.mp he
    exact h t (mem_terms_iff.mpr ⟨f, mem_functions_iff.mpr ⟨_, hf⟩, ht⟩) (by simp [hvar, hzero])

/-- The factor of an entry is the factor of a term. -/
theorem factor_of_mem_entriesFor {v : Variable R} {e : Row × Number R} (h : e ∈ m.entriesFor v) :
    ∃ t ∈ m.terms, t.factor = e.2 := by
  obtain ⟨f, hf, t, ht, _, _, heq⟩ := mem_entriesFor.mp h
  exact ⟨t, mem_terms_iff.mpr ⟨f, mem_functions_iff.mpr ⟨_, hf⟩, ht⟩, heq⟩

end Model

end LinearProgram
