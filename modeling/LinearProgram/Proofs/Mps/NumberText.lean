import Mathlib
import LinearProgram.Proofs.Decimal.Significant
import LinearProgram.Proofs.Double.Order
import LinearProgram.Proofs.Mps.Line
/-!
# Which number texts are decimals

A number is written as a decimal with twelve digits after the point if its double is finite, and
as one of three words if it is not.  `IsDecimal` says what a decimal looks like, and
`isDecimal_iff` that finiteness is all that it takes.  The text of the number 1, which is ready
before any number is written, is such a decimal too.
-/
namespace LinearProgram.Mps

open LinearProgram.Text
open LinearProgram.Decimal (Reading reading scientific scientificText exponentText padded rounded
  rounded_digits)
open LinearProgram.Double (isFinite)

/-- A decimal in scientific notation: a minus if it is negative, a digit, the point and `places`
digits, and an exponent of at least two digits with its sign. -/
def IsDecimal (places : Nat) (t : List Char) : Prop :=
  ∃ (minus : Bool) (first : Char) (fraction : List Char) (negative : Bool) (exponent : List Char),
    t = (if minus then ['-'] else []) ++ first :: '.' ::
        (fraction ++ 'e' :: (if negative then '-' else '+') :: exponent) ∧
      first.isDigit = true ∧ fraction.length = places ∧ (∀ d ∈ fraction, d.isDigit = true) ∧
      2 ≤ exponent.length ∧ ∀ d ∈ exponent, d.isDigit = true

/-- The words for doubles that are not finite. -/
def nonFiniteTexts : List (List Char) :=
  [['n', 'a', 'n'], ['i', 'n', 'f'], ['-', 'i', 'n', 'f']]

theorem IsDecimal.point_mem {places : Nat} {t : List Char} (h : IsDecimal places t) : '.' ∈ t := by
  obtain ⟨minus, first, fraction, negative, exponent, rfl, _⟩ := h
  simp

theorem IsDecimal.notMem_nonFiniteTexts {places : Nat} {t : List Char} (h : IsDecimal places t) :
    t ∉ nonFiniteTexts := by
  have hpoint : ∀ u ∈ nonFiniteTexts, '.' ∉ u := by decide
  exact fun ht => hpoint t ht h.point_mem

/-! ## Doubles -/

/-- A finite double is written as a decimal with all digits that are asked for. -/
theorem isDecimal_scientific {x : Float} (hx : isFinite x = true) (k : Nat) :
    IsDecimal (k + 1) (scientific (k + 1) x) := by
  obtain ⟨minus, m, e, hreading⟩ := (Double.isFinite_iff x).mp hx
  have hlength := Decimal.length_rounded (k + 1) m e
  have hdigits := rounded_digits (k + 1 + 1) m e
  simp only [scientific, hreading]
  generalize rounded (k + 1 + 1) m e = s at hlength hdigits
  obtain ⟨ds, power⟩ := s
  match ds with
  | [] => simp at hlength
  | [_] => simp at hlength
  | first :: d :: ds =>
    obtain ⟨hfirst, hfraction⟩ := List.forall_mem_cons.mp hdigits
    have hwidth : 2 ≤ (padded 2 power.natAbs).length := by
      rw [padded, List.length_leftpad]
      exact Nat.le_max_left ..
    refine ⟨minus, first, d :: ds, decide (power < 0), padded 2 power.natAbs, ?_, hfirst, ?_,
      hfraction, hwidth, fun c hc => isDigit_of_mem_padded hc⟩
    · simp [scientificText, exponentText]
    · simpa using hlength

/-- A double that is not finite is written as a word. -/
theorem scientific_mem_nonFiniteTexts {x : Float} (hx : isFinite x = false) (places : Nat) :
    scientific places x ∈ nonFiniteTexts := by
  unfold isFinite at hx
  unfold scientific
  cases hreading : reading x with
  | nan => simp [nonFiniteTexts]
  | infinite negative => cases negative <;> simp [nonFiniteTexts]
  | finite negative m e => simp [hreading] at hx

/-! ## Numbers -/

theorem isDecimal_oneText : IsDecimal places oneText := by
  have hzeros : ∀ n : Nat, ∀ d ∈ List.replicate n '0', d.isDigit = true := by
    intro n d hd
    obtain rfl := List.eq_of_mem_replicate hd
    decide
  exact ⟨false, '1', List.replicate 12 '0', false, List.replicate 2 '0', rfl, by decide, rfl,
    hzeros 12, le_rfl, hzeros 2⟩

variable {k : Number Float} {x : Float} {t : List Char}

/-- **The text of a number is a decimal exactly if its double is finite.** -/
theorem isDecimal_iff (ht : numberText? k = some t) (hx : k.real? = some x) :
    IsDecimal places t ↔ isFinite x = true := by
  unfold numberText? at ht
  split_ifs at ht with hone
  · obtain rfl := Option.some.inj ht
    exact ⟨fun _ => Number.isFinite_of_equals hone hx, fun _ => isDecimal_oneText⟩
  · rw [hx] at ht
    obtain rfl := Option.some.inj ht
    constructor
    · intro hdecimal
      by_contra hnot
      have hword := scientific_mem_nonFiniteTexts (Bool.eq_false_iff.mpr hnot) places
      exact hdecimal.notMem_nonFiniteTexts hword
    · exact fun hfinite => isDecimal_scientific hfinite 11

/-- A number is written as a decimal or as a word for what is not finite. -/
theorem isDecimal_or_mem_nonFiniteTexts (ht : numberText? k = some t) :
    IsDecimal places t ∨ t ∈ nonFiniteTexts := by
  unfold numberText? at ht
  split_ifs at ht with hone
  · obtain rfl := Option.some.inj ht
    exact .inl isDecimal_oneText
  · obtain ⟨x, _, rfl⟩ := Option.map_eq_some_iff.mp ht
    cases hfinite : isFinite x with
    | true => exact .inl (isDecimal_scientific hfinite 11)
    | false => exact .inr (scientific_mem_nonFiniteTexts hfinite places)

end LinearProgram.Mps
