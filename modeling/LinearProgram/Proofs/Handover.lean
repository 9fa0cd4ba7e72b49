import Mathlib
import LinearProgram.Proofs.Double.Order
import LinearProgram.Proofs.Mps.Decoding
import LinearProgram.Proofs.Mps.Numbers
import LinearProgram.Proofs.Mps.NumberText
import LinearProgram.Proofs.Validation
/-!
# What the validator says about numbers

A model without violations is meant to be one that can be handed to a solver.  The validator looks
at names, labels and the order of bounds; it does not ask whether numbers are finite.  `Handover`
says how far its word goes, and `handover_of_violations_eq_nil` that it goes so far.  All lines of
the file can be written, and the numbers on them are decimals exactly if the factors and the
right-hand sides are finite; two bounds are in order exactly if neither is NaN.

That nothing more holds is shown by `notFiniteModel`: it has no violations, but a factor that is
NaN, a right-hand side that is infinite because two finite constants are too far apart, and a
lower bound that is NaN.

## How the proof goes

The numbers in the file are those of the model (`exists_card_number?_iff`), and each has a decimal
for its text if its double is finite (`isDecimal_iff`).  The test of the bounds is that the upper
one is not below the lower one, which for NaN says nothing (`atMost_iff`).
-/
namespace LinearProgram

open LinearProgram.Double (isFinite)

variable {m : Model Float}

/-! ## Numbers -/

theorem real?_of_mem_numbers (hfactors : ∀ t ∈ m.terms, ∃ x, t.factor.real? = some x)
    {k : Number Float} (hk : k ∈ m.numbers) : ∃ x, k.real? = some x := by
  obtain hk | hk := List.mem_append.mp hk
  · obtain ⟨t, ht, rfl⟩ := List.mem_map.mp hk
    exact hfactors t (List.mem_filter.mp ht).1
  · obtain ⟨c, _, rfl⟩ := List.mem_map.mp hk
    exact ⟨_, rfl⟩

/-- The numbers that are written are finite exactly if factors and right-hand sides are. -/
theorem numbers_finite_iff : (∀ k ∈ m.numbers, ∀ x ∈ k.real?, isFinite x = true) ↔
    (∀ t ∈ m.terms, ∀ x ∈ t.factor.real?, isFinite x = true) ∧
      ∀ c ∈ m.constraints, isFinite c.constraint.rightHandSide = true := by
  simp only [Model.numbers, List.forall_mem_append, List.forall_mem_map, Number.real?,
    Option.mem_some_iff, forall_eq']
  refine and_congr_left' ⟨fun h t ht x hx => ?_, fun h t ht => h t (List.mem_filter.mp ht).1⟩
  cases hzero : t.factor.isZero with
  | true => exact Number.isFinite_of_isZero hzero hx
  | false => exact h t (List.mem_filter.mpr ⟨ht, by simp [hzero]⟩) x hx

/-- The numbers on the lines are decimals exactly if the numbers of the model are finite. -/
theorem decimals_iff (hfactors : ∀ t ∈ m.terms, ∃ x, t.factor.real? = some x) :
    (∀ l, some l ∈ Mps.fileLines m → ∀ t ∈ l.card.number?, Mps.IsDecimal 12 t) ↔
      ∀ k ∈ m.numbers, ∀ x ∈ k.real?, isFinite x = true := by
  constructor
  · intro h k hk x hx
    have ht := Mps.numberText?_eq_some hx
    obtain ⟨l, hl, hnumber⟩ := (Mps.exists_card_number?_iff m _).mpr ⟨k, hk, ht⟩
    exact (Mps.isDecimal_iff ht hx).mp (h l hl _ hnumber)
  · intro h l hl t hnumber
    obtain ⟨k, hk, ht⟩ := (Mps.exists_card_number?_iff m t).mp ⟨l, hl, hnumber⟩
    obtain ⟨x, hx⟩ := real?_of_mem_numbers hfactors hk
    exact (Mps.isDecimal_iff ht hx).mpr (h k hk x hx)

/-! ## Models that are accepted -/

/-- How far a model can be handed to a solver. -/
structure Handover (m : Model Float) : Prop where
  /-- Every line can be written. -/
  lines : ∃ ls, Mps.lines? m = some ls ∧ Mps.fileLines m = ls.map some
  /-- What is read off a line as its number is a decimal, or a word for what is not finite. -/
  texts : ∀ l, some l ∈ Mps.fileLines m → ∀ t ∈ l.card.number?,
    Mps.IsDecimal 12 t ∨ t ∈ Mps.nonFiniteTexts
  decimals : (∀ l, some l ∈ Mps.fileLines m → ∀ t ∈ l.card.number?, Mps.IsDecimal 12 t) ↔
    (∀ t ∈ m.terms, ∀ x ∈ t.factor.real?, isFinite x = true) ∧
      ∀ c ∈ m.constraints, isFinite c.constraint.rightHandSide = true
  bounds : ∀ v ∈ m.vars, ∀ lo ∈ v.minimum?, ∀ hi ∈ v.maximum?,
    lo.AtMost hi ↔ lo.isNaN = false ∧ hi.isNaN = false

/-- **What an empty list of violations is worth**, for a model whose factors have doubles. -/
theorem handover_of_violations_eq_nil (hvalid : m.violations = [])
    (hfactors : ∀ t ∈ m.terms, ∃ x, t.factor.real? = some x) : Handover m where
  lines := by
    obtain ⟨ls, hls, _, _⟩ := Mps.exists_lines_of_shows (Mps.shows_fileLines hfactors)
    exact ⟨ls, hls, mapM_id_eq_some_iff.mp hls⟩
  texts l hl t hnumber := by
    obtain ⟨k, _, ht⟩ := (Mps.exists_card_number?_iff m t).mp ⟨l, hl, hnumber⟩
    exact Mps.isDecimal_or_mem_nonFiniteTexts ht
  decimals := (decimals_iff hfactors).trans numbers_finite_iff
  bounds v hv lo hlo hi hhi := by
    have hbounds := ((m.violations_eq_nil_iff.mp hvalid).vars v hv).2.2
    refine Number.atMost_iff (Bool.eq_false_iff.mpr fun hless => hbounds (.inl ?_))
    exact ⟨lo, hlo, hi, hhi, hless⟩

theorem handover_gapModel : Mps.gapModel.violations = [] ∧
    (∀ t ∈ Mps.gapModel.terms, ∃ x, t.factor.real? = some x) ∧ Handover Mps.gapModel := by
  have hvalid : Mps.gapModel.violations = [] := by decide +kernel
  exact ⟨hvalid, Mps.real?_gapModel, handover_of_violations_eq_nil hvalid Mps.real?_gapModel⟩

/-- A model that is accepted with NaN for a bound and for a factor, and with two constants whose
difference is too large for a double. -/
def notFiniteModel : Model Float :=
  let x : Variable Float :=
    ⟨0, Text.ofString "x", .real, some (.real Decimal.nan), some (.real 1.0)⟩
  { name := Text.ofString "m"
    objective? := none
    constraints := [
      ⟨⟨⟨[⟨x, .real 1.0⟩], -1e308⟩, .lte, 1e308⟩, none⟩,
      ⟨⟨⟨[⟨x, .real Decimal.nan⟩], 0.0⟩, .lte, 1.0⟩, none⟩] }

/-- No violations, factors that have doubles, and yet numbers that are no decimals and bounds that
are not in order. -/
theorem not_handedOver_notFiniteModel : notFiniteModel.violations = [] ∧
    (∀ t ∈ notFiniteModel.terms, ∃ x, t.factor.real? = some x) ∧
    (∃ l, some l ∈ Mps.fileLines notFiniteModel ∧
      l.card = ["X0000000".toList, "C0000001".toList, "nan".toList]) ∧
    (∃ l, some l ∈ Mps.fileLines notFiniteModel ∧
      l.card = ["RHS".toList, "C0000000".toList, "inf".toList]) ∧
    ¬ Mps.IsDecimal 12 "nan".toList ∧ ¬ Mps.IsDecimal 12 "inf".toList ∧
    ∃ v ∈ notFiniteModel.vars, ∃ lo ∈ v.minimum?, ∃ hi ∈ v.maximum?, ¬ lo.AtMost hi := by
  refine ⟨by decide +kernel, ?_, ⟨.entry 0 (.constraint 1) "nan".toList, by decide +kernel, ?_⟩,
    ⟨.rightHandSide 0 "inf".toList, by decide +kernel, ?_⟩, ?_, ?_, by decide +kernel⟩
  · simp [notFiniteModel, Model.terms, Model.functions, Number.real?]
  · decide +kernel
  · decide +kernel
  · exact fun h => h.notMem_nonFiniteTexts (by decide)
  · exact fun h => h.notMem_nonFiniteTexts (by decide)

end LinearProgram
