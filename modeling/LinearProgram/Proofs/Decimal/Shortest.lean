import Mathlib
import LinearProgram.Decimal.Shortest
import LinearProgram.Proofs.Decimal.Value
import LinearProgram.Proofs.Double.Nearest
/-!
# The shortest digits read back

The digits that are written for a double are worth a decimal in its interval, so they are read as
this double again (`writes_shortest`).

## How the proof goes

Digits that were found by trying passed the test of the interval (`reads_of_contains`).  If none
were found, seventeen digits are written, and these are always near enough: the error is at most
half a unit of the last digit, and 53 bits are coarser (`reads_magnitude`).  In both cases zeros at
the end are left out, which moves the point but not the value (`digitsValue_trimZeros`).
-/
namespace LinearProgram.Decimal

open LinearProgram.Double (Reads reach IsCanonical)
open LinearProgram.Rounding
open LinearProgram.Text (digitsValue)

/-! ## The interval -/

section

variable {m : Nat} {e : Int}

/-- An end of the interval is a number of quarters of the last bit. -/
theorem quarters_div_unit (n : Nat) (e : Int) :
    (numerator n (e - 2) : ℚ) / denominator (e - 2) = n / 4 * (2 : ℚ) ^ e := by
  rw [numerator_div_denominator, zpow_sub₀ two_ne_zero]
  norm_num
  ring

theorem reach_eq (hm : 0 < m) (e : Int) :
    ((4 * m - (if m = 2 ^ 52 ∧ -1074 < e then 1 else 2) : Nat) : ℚ) / 4 = m - reach m e := by
  unfold reach
  split_ifs
  · rw [Nat.cast_sub (by omega)]
    push_cast
    ring
  · rw [Nat.cast_sub (by omega)]
    push_cast
    ring

/-- **What passes the test lies in the interval.** -/
theorem reads_of_contains (hm : 0 < m) {num den : Nat} (hden : 0 < den)
    (h : (ReadBack.of m e).contains num den = true) : Reads m e ((num : ℚ) / den) := by
  have hunit : (0 : ℚ) < denominator (e - 2) := by
    exact_mod_cast Nat.pos_of_ne_zero (denominator_ne_zero (e - 2))
  have hden' : (0 : ℚ) < den := by exact_mod_cast hden
  have hlower : ((ReadBack.of m e).lower : ℚ) / denominator (e - 2) =
      (m - reach m e) * (2 : ℚ) ^ e := by
    rw [← reach_eq hm, ← quarters_div_unit]
    simp [ReadBack.of]
  have hupper : ((ReadBack.of m e).upper : ℚ) / denominator (e - 2) =
      (m + 1 / 2) * (2 : ℚ) ^ e := by
    have hhalf : ((4 * m + 2 : Nat) : ℚ) / 4 = m + 1 / 2 := by
      push_cast
      ring
    rw [← hhalf, ← quarters_div_unit]
    rfl
  have hle : ∀ a b c d : Nat, (0 : ℚ) < b → (0 : ℚ) < d → a * d ≤ c * b → (a : ℚ) / b ≤ c / d :=
    fun a b c d hb hd h => (div_le_div_iff₀ hb hd).mpr (by exact_mod_cast h)
  have hlt : ∀ a b c d : Nat, (0 : ℚ) < b → (0 : ℚ) < d → a * d < c * b → (a : ℚ) / b < c / d :=
    fun a b c d hb hd h => (div_lt_div_iff₀ hb hd).mpr (by exact_mod_cast h)
  unfold ReadBack.contains at h
  by_cases heven : m % 2 = 0
  · have hclosed : (ReadBack.of m e).closed = true := decide_eq_true heven
    simp only [hclosed, if_true, Bool.and_eq_true, decide_eq_true_eq] at h
    refine ⟨hlower ▸ hle _ _ _ _ hunit hden' h.1, hupper ▸ hle _ _ _ _ hden' hunit h.2, ?_⟩
    intro hodd
    omega
  · have hclosed : (ReadBack.of m e).closed = false := decide_eq_false heven
    simp only [hclosed, Bool.false_eq_true, if_false, Bool.and_eq_true, decide_eq_true_eq] at h
    have hlow := hlower ▸ hlt _ _ _ _ hunit hden' h.1
    have hhigh := hupper ▸ hlt _ _ _ _ hden' hunit h.2
    exact ⟨hlow.le, hhigh.le, fun _ => ⟨hlow, hhigh⟩⟩

/-- What was taken of two that were tried has passed the test. -/
theorem passes_of_tried {p : Nat → Bool} {other : Bool} {a b c : Nat}
    (h : (if p a then some a else if other && p b then some b else none) = some c) :
    p c = true := by
  split_ifs at h with ha hb
  · exact Option.some.inj h ▸ ha
  · rw [Bool.and_eq_true] at hb
    exact Option.some.inj h ▸ hb.2

/-- A number of digits that was found by trying lies in the interval. -/
theorem reads_of_candidate? (hm : 0 < m) {x : Int} {k c : Nat}
    (h : (ReadBack.of m e).candidate? x k = some c) : Reads m e (c * (10 : ℚ) ^ (x + 1 - k)) := by
  have hpower : -((k : Int) - 1 - x) = x + 1 - k := by ring
  let passes (n : Nat) : Bool :=
    (ReadBack.of m e).contains (scale n 1 (-((k : Int) - 1 - x))).1
      (scale n 1 (-((k : Int) - 1 - x))).2
  have hpasses : passes c = true := passes_of_tried (p := passes) h
  have hvalue := scale_div c 1 (-((k : Int) - 1 - x))
  rw [Nat.cast_one, div_one] at hvalue
  rw [← hpower, ← hvalue]
  exact reads_of_contains hm (scale_snd_pos one_ne_zero c _) hpasses

/-! ## Seventeen digits -/

/-- **Seventeen digits are near enough.** -/
theorem reads_magnitude (hcanonical : IsCanonical m e) (hm : 0 < m) :
    Reads m e (magnitude 10 16 (m * (2 : ℚ) ^ e)) := by
  have hunit : (0 : ℚ) < (2 : ℚ) ^ e := by positivity
  have hbase : 2 ≤ 10 := by decide
  have herror := abs_magnitude_sub_le hbase 16
    (x := m * (2 : ℚ) ^ e) (by positivity)
  have hnear : ((10 : Nat) : ℚ) ^ (-((16 : Nat) : ℤ)) / 2 * m < reach m e := by
    have hbits : (m : ℚ) < 9007199254740992 := by exact_mod_cast hcanonical.1
    unfold reach
    split_ifs with h
    · rw [h.1]
      norm_num
    · norm_num
      linarith
  have hbound : ((10 : Nat) : ℚ) ^ (-((16 : Nat) : ℤ)) / 2 * (m * (2 : ℚ) ^ e) <
      reach m e * (2 : ℚ) ^ e := by
    rw [← mul_assoc]
    exact mul_lt_mul_of_pos_right hnear hunit
  obtain ⟨hbelow, habove⟩ := abs_lt.mp (herror.trans_lt hbound)
  have hhalf : reach m e * (2 : ℚ) ^ e ≤ 1 / 2 * (2 : ℚ) ^ e :=
    mul_le_mul_of_nonneg_right (Double.reach_le m e) hunit.le
  have hlow : (m - reach m e) * (2 : ℚ) ^ e < magnitude 10 16 (m * (2 : ℚ) ^ e) := by
    rw [sub_mul]
    linarith
  have hhigh : magnitude 10 16 (m * (2 : ℚ) ^ e) < (m + 1 / 2) * (2 : ℚ) ^ e := by
    rw [add_mul]
    linarith
  exact ⟨hlow.le, hhigh.le, fun _ => ⟨hlow, hhigh⟩⟩

end

/-! ## Zeros at the end -/

/-- The rational that digits are worth if the first one is that of a power of ten. -/
def worth (ds : List Char) (e : Int) : ℚ :=
  digitsValue ds * (10 : ℚ) ^ (e + 1 - ds.length)

theorem digitsValue_append_zeros (ds : List Char) (k : Nat) :
    digitsValue (ds ++ List.replicate k '0') = digitsValue ds * 10 ^ k := by
  rw [digitsValue, digitsValue, Nat.ofDigitChars_append, Nat.ofDigitChars_replicate_zero,
    Nat.mul_comm]

/-- Zeros at the end are worth nothing. -/
theorem worth_append_zeros (ds : List Char) (k : Nat) (e : Int) :
    worth (ds ++ List.replicate k '0') e = worth ds e := by
  have hten : (10 : ℚ) ≠ 0 := by norm_num
  rw [worth, worth, digitsValue_append_zeros, List.length_append, List.length_replicate]
  push_cast
  rw [mul_assoc, ← zpow_natCast, ← zpow_add₀ hten]
  congr 2
  ring

/-- Digits that do not start with zero lose zeros at their end and nothing else. -/
theorem exists_trimZeros {ds : List Char} (h : ds.head? ≠ some '0') (hne : ds ≠ []) :
    trimZeros ds ≠ [] ∧ ∃ k, ds = trimZeros ds ++ List.replicate k '0' := by
  generalize hzeros : ds.reverse.takeWhile (· == '0') = zeros
  have hall : zeros.reverse = List.replicate zeros.length '0' := by
    rw [List.eq_replicate_iff]
    refine ⟨List.length_reverse, fun c hc => ?_⟩
    rw [List.mem_reverse, ← hzeros] at hc
    simpa using List.mem_takeWhile_imp hc
  have hsplit : ds = (ds.reverse.dropWhile (· == '0')).reverse ++
      List.replicate zeros.length '0' := by
    rw [← hall, ← List.reverse_append, ← hzeros, List.takeWhile_append_dropWhile,
      List.reverse_reverse]
  unfold trimZeros
  split
  · next hkept =>
    -- There would be nothing but zeros.
    rw [hkept, List.nil_append] at hsplit
    have hlength : zeros.length ≠ 0 := by
      intro hzero
      rw [hzero] at hsplit
      exact hne hsplit
    rw [hsplit, List.head?_replicate, if_neg hlength] at h
    exact absurd rfl h
  · next hkept => exact ⟨hkept, _, hsplit⟩

/-! ## The shortest digits -/

/-- Digits that are written for a size: they do not start with zero, and what they are worth is in
the interval. -/
structure Writes (m : Nat) (e : Int) (ds : List Char) (power : Int) : Prop where
  digits : ∀ d ∈ ds, d.isDigit = true
  nonempty : ds ≠ []
  head : ds.head? ≠ some '0'
  reads : Reads m e (worth ds power)

/-- The digits of a number lose their zeros. -/
theorem writes_trimZeros {m : Nat} {e : Int} {c : Nat} (hc : c ≠ 0) {power : Int}
    (h : Reads m e (c * (10 : ℚ) ^ (power + 1 - digitCount c))) :
    Writes m e (trimZeros (digits c)) power := by
  obtain ⟨hne, k, hsplit⟩ := exists_trimZeros (head_digits hc) Nat.toDigits_ne_nil
  have hworth : worth (digits c) power = c * (10 : ℚ) ^ (power + 1 - digitCount c) := by
    rw [worth, digitsValue_digits]
    rfl
  refine ⟨fun d hd => ?_, hne, fun hhead => ?_, ?_⟩
  · refine Nat.isDigit_of_mem_toDigits (b := 10) (n := c) (by decide) (by decide) ?_
    show d ∈ digits c
    rw [hsplit]
    exact List.mem_append_left _ hd
  · refine head_digits hc ?_
    rw [hsplit, List.head?_append_of_ne_nil _ hne, hhead]
  · rw [← worth_append_zeros _ k, ← hsplit, hworth]
    exact h

/-- **The shortest digits read back.** -/
theorem writes_shortest {m : Nat} {e : Int} (hcanonical : IsCanonical m e) (hm : 0 < m) :
    Writes m e (shortest m e).1 (shortest m e).2 := by
  have hvalue : ((ReadBack.of m e).value : ℚ) / (ReadBack.of m e).unit = m * (2 : ℚ) ^ e := by
    have hquarters := quarters_div_unit (4 * m) e
    rw [Nat.cast_mul, Nat.cast_ofNat, mul_div_cancel_left₀ (m : ℚ) four_ne_zero] at hquarters
    exact hquarters
  have hne : ∀ {c : Nat} {p : Int}, Reads m e (c * (10 : ℚ) ^ p) → c ≠ 0 := by
    rintro c p h rfl
    rw [Nat.cast_zero, zero_mul] at h
    exact lt_irrefl _ (Double.precision_cases hcanonical hm h).1
  unfold shortest
  dsimp only
  split
  · next k c hfound =>
    obtain ⟨k, _, hcandidate⟩ := List.exists_of_findSome?_eq_some hfound
    obtain ⟨c, hc, heq⟩ := Option.map_eq_some_iff.mp hcandidate
    cases heq
    have hreads := reads_of_candidate? hm hc
    refine writes_trimZeros (hne hreads) ?_
    convert hreads using 3
    ring
  · have hnum : (ReadBack.of m e).value ≠ 0 := numerator_ne_zero (by omega) _
    have hden : (ReadBack.of m e).unit ≠ 0 := denominator_ne_zero _
    have hvalue' := value_significant 16 hnum hden
    obtain ⟨hlow, hhigh⟩ := coefficient_significant (k := 16) hnum hden
    have hreads := reads_magnitude hcanonical hm
    rw [← hvalue, ← hvalue'] at hreads
    refine writes_trimZeros (hne hreads) ?_
    rw [show mostDigits = 16 + 1 from rfl, digitCount_eq hlow hhigh]
    convert hreads using 3
    push_cast
    ring

end LinearProgram.Decimal
