import Mathlib
import LinearProgram.Decimal.Binary
import LinearProgram.Decimal.Fixed
/-!
# Significant digits

A positive fraction is written by its leading digits.  `leadingExponent_spec` says that the power
of ten of the first one is guessed right: the fraction is at least this power, and less than ten
times it.  So the scaled fraction has as many digits before the point as are asked for, and
rounding keeps their number (`coefficient_significant`), because a carry into one more digit
moves the exponent instead.  Hence the text of a finite double has exactly as many digits as asked
for, whatever its size (`length_rounded`).

Fractions are compared as rationals here, where a power of ten may have any integer exponent.
-/
namespace LinearProgram.Decimal

/-! ## Counting digits -/

theorem digitCount_pos (n : Nat) : 0 < digitCount n :=
  Nat.length_toDigits_pos

theorem digitCount_le_iff {n k : Nat} (hk : 0 < k) : digitCount n ≤ k ↔ n < 10 ^ k :=
  Nat.length_toDigits_le_iff (by decide) hk

theorem lt_pow_digitCount (n : Nat) : n < 10 ^ digitCount n :=
  (digitCount_le_iff (digitCount_pos n)).mp le_rfl

theorem pow_le_of_ne_zero {n : Nat} (hn : n ≠ 0) : 10 ^ (digitCount n - 1) ≤ n := by
  by_contra hlt
  have hlt : n < 10 ^ (digitCount n - 1) := Nat.lt_of_not_le hlt
  have hpos := digitCount_pos n
  by_cases hone : digitCount n = 1
  · rw [hone, Nat.sub_self, Nat.pow_zero] at hlt
    omega
  · have hle := (digitCount_le_iff (by omega)).mpr hlt
    omega

/-- A number between two powers of ten has the digits of the lower one. -/
theorem digitCount_eq {n k : Nat} (hlow : 10 ^ k ≤ n) (hhigh : n < 10 ^ (k + 1)) :
    digitCount n = k + 1 := by
  have hle : digitCount n ≤ k + 1 := (digitCount_le_iff (Nat.succ_pos k)).mpr hhigh
  by_cases hk : k = 0
  · subst hk
    have hpos := digitCount_pos n
    omega
  · have hnot : ¬ digitCount n ≤ k := fun h =>
      absurd ((digitCount_le_iff (Nat.pos_of_ne_zero hk)).mp h) (Nat.not_lt.mpr hlow)
    omega

/-! ## The leading digit -/

theorem scale_snd_pos {den : Nat} (hden : den ≠ 0) (num : Nat) (p : Int) :
    0 < (scale num den p).2 :=
  Nat.mul_pos (Nat.pos_of_ne_zero hden) (Nat.pow_pos (by decide))

/-- Scaling multiplies the fraction by the power of ten. -/
theorem scale_div (num den : Nat) (p : Int) :
    ((scale num den p).1 : ℚ) / (scale num den p).2 = num / den * (10 : ℚ) ^ p := by
  have hfst : ((scale num den p).1 : ℚ) = num * 10 ^ p.toNat := by
    rw [show (scale num den p).1 = num * 10 ^ p.toNat from rfl]
    push_cast
    rfl
  have hsnd : ((scale num den p).2 : ℚ) = den * 10 ^ (-p).toNat := by
    rw [show (scale num den p).2 = den * 10 ^ (-p).toNat from rfl]
    push_cast
    rfl
  rw [hfst, hsnd]
  obtain ⟨n, rfl | rfl⟩ := p.eq_nat_or_neg
  · simp [div_mul_eq_mul_div]
  · rw [neg_neg, Int.toNat_neg_natCast, Int.toNat_natCast, pow_zero, mul_one, zpow_neg,
      zpow_natCast, div_mul_eq_div_div, div_eq_mul_inv _ ((10 : ℚ) ^ n)]

/-- One side of a scaled fraction is at most a multiple of the other if the fraction is. -/
theorem mul_le_scale_iff (num : Nat) {den : Nat} (hden : den ≠ 0) (p : Int) (n : Nat) :
    n * (scale num den p).2 ≤ (scale num den p).1 ↔ (n : ℚ) ≤ num / den * (10 : ℚ) ^ p := by
  have hpos : (0 : ℚ) < (scale num den p).2 := by exact_mod_cast scale_snd_pos hden num p
  rw [← scale_div, le_div_iff₀ hpos]
  exact_mod_cast Iff.rfl

/-- A number of `a + 1` digits lies between two powers of ten. -/
theorem exists_digitCount_bounds {n : Nat} (hn : n ≠ 0) : ∃ a : Nat, digitCount n = a + 1 ∧
    (10 : ℚ) ^ (a : ℤ) ≤ n ∧ (n : ℚ) < (10 : ℚ) ^ ((a : ℤ) + 1) := by
  obtain ⟨a, ha⟩ : ∃ a : Nat, digitCount n = a + 1 :=
    ⟨_, (Nat.succ_pred_eq_of_pos (digitCount_pos n)).symm⟩
  have hlow := pow_le_of_ne_zero hn
  have hhigh := lt_pow_digitCount n
  rw [ha] at hlow hhigh
  refine ⟨a, ha, ?_, ?_⟩
  · rw [zpow_natCast]
    exact_mod_cast hlow
  · rw [← Nat.cast_succ, zpow_natCast]
    exact_mod_cast hhigh

/-- Powers of ten around two numbers tell their quotient up to a factor of ten on either side. -/
theorem div_bounds {x y : ℚ} {a b : ℤ} (hx : (10 : ℚ) ^ a ≤ x) (hx' : x < (10 : ℚ) ^ (a + 1))
    (hy : (10 : ℚ) ^ b ≤ y) (hy' : y < (10 : ℚ) ^ (b + 1)) :
    (10 : ℚ) ^ (a - b - 1) ≤ x / y ∧ x / y < (10 : ℚ) ^ (a - b + 1) := by
  have hten : (10 : ℚ) ≠ 0 := by norm_num
  have hpos : 0 < y := lt_of_lt_of_le (by positivity) hy
  constructor
  · rw [le_div_iff₀ hpos]
    calc (10 : ℚ) ^ (a - b - 1) * y
        ≤ (10 : ℚ) ^ (a - b - 1) * (10 : ℚ) ^ (b + 1) := by gcongr
      _ = (10 : ℚ) ^ a := by rw [← zpow_add₀ hten]; congr 1; omega
      _ ≤ x := hx
  · rw [div_lt_iff₀ hpos]
    calc x < (10 : ℚ) ^ (a + 1) := hx'
      _ = (10 : ℚ) ^ (a - b + 1) * (10 : ℚ) ^ b := by rw [← zpow_add₀ hten]; congr 1; omega
      _ ≤ (10 : ℚ) ^ (a - b + 1) * y := by gcongr

/-- **The power of ten of the leading digit**: the fraction is at least as great, and less than
ten times as great. -/
theorem leadingExponent_spec {num den : Nat} (hnum : num ≠ 0) (hden : den ≠ 0) :
    (10 : ℚ) ^ leadingExponent num den ≤ num / den ∧
      (num : ℚ) / den < (10 : ℚ) ^ (leadingExponent num den + 1) := by
  obtain ⟨a, ha, hnumlow, hnumhigh⟩ := exists_digitCount_bounds hnum
  obtain ⟨b, hb, hdenlow, hdenhigh⟩ := exists_digitCount_bounds hden
  obtain ⟨hlow, hhigh⟩ := div_bounds hnumlow hnumhigh hdenlow hdenhigh
  have hguess : (digitCount num : ℤ) - digitCount den = a - b := by
    rw [ha, hb]
    omega
  -- The guess is the exponent or one more, and this is what is tested.
  have htest := mul_le_scale_iff num hden (-((a : ℤ) - b)) 1
  rw [Nat.one_mul, Nat.cast_one, zpow_neg, ← div_eq_mul_inv, one_le_div (by positivity)] at htest
  unfold leadingExponent
  simp only [hguess, htest]
  split_ifs with h
  · exact ⟨h, hhigh⟩
  · rw [sub_add_cancel]
    exact ⟨hlow, lt_of_not_ge h⟩

/-! ## Rounding to digits -/

theorem le_roundDiv {num den n : Nat} (hden : 0 < den) (h : n * den ≤ num) :
    n ≤ roundDiv num den := by
  have hle : n ≤ num / den := (Nat.le_div_iff_mul_le hden).mpr h
  unfold roundDiv
  dsimp only
  split_ifs <;> omega

theorem roundDiv_le {num den n : Nat} (hden : 0 < den) (h : num ≤ n * den) :
    roundDiv num den ≤ n := by
  have hle : num / den ≤ n := Nat.div_le_of_le_mul (by rwa [Nat.mul_comm])
  by_cases heq : num / den = n
  · have hmod : num % den = 0 := by
      have hdiv := Nat.div_add_mod num den
      rw [heq, Nat.mul_comm] at hdiv
      omega
    have hround : roundDiv num den = num / den := by simp [roundDiv, hmod, hden]
    omega
  · unfold roundDiv
    dsimp only
    split_ifs <;> omega

/-- The coefficient has as many digits as asked for. -/
theorem coefficient_significant {k num den : Nat} (hnum : num ≠ 0) (hden : den ≠ 0) :
    10 ^ k ≤ (significant (k + 1) num den).coefficient ∧
      (significant (k + 1) num den).coefficient < 10 ^ (k + 1) := by
  have hten : (10 : ℚ) ≠ 0 := by norm_num
  obtain ⟨hlow, hhigh⟩ := leadingExponent_spec hnum hden
  generalize he : leadingExponent num den = e at hlow hhigh
  have hpower : ((k + 1 : Nat) : Int) - 1 - e = k - e := by push_cast; ring
  have hpos := scale_snd_pos hden num ((k : Int) - e)
  have hscaledLow : 10 ^ k * (scale num den (k - e)).2 ≤ (scale num den (k - e)).1 := by
    rw [mul_le_scale_iff num hden]
    calc ((10 ^ k : Nat) : ℚ) = (10 : ℚ) ^ e * (10 : ℚ) ^ ((k : ℤ) - e) := by
          rw [← zpow_add₀ hten, add_sub_cancel, zpow_natCast]; push_cast; rfl
      _ ≤ num / den * (10 : ℚ) ^ ((k : ℤ) - e) := by gcongr
  have hscaledHigh : (scale num den (k - e)).1 ≤ 10 ^ (k + 1) * (scale num den (k - e)).2 := by
    by_contra hlt
    have hle := (mul_le_scale_iff num hden ((k : Int) - e) (10 ^ (k + 1))).mp (by omega)
    have hlt : (num : ℚ) / den * (10 : ℚ) ^ ((k : ℤ) - e) < ((10 ^ (k + 1) : Nat) : ℚ) := by
      calc (num : ℚ) / den * (10 : ℚ) ^ ((k : ℤ) - e)
          < (10 : ℚ) ^ (e + 1) * (10 : ℚ) ^ ((k : ℤ) - e) := by gcongr
        _ = (10 : ℚ) ^ ((k + 1 : Nat) : ℤ) := by
            rw [← zpow_add₀ hten]; congr 1; push_cast; ring
        _ = ((10 ^ (k + 1) : Nat) : ℚ) := by rw [zpow_natCast]; push_cast; rfl
    exact absurd hle (not_le.mpr hlt)
  have hc := le_roundDiv hpos hscaledLow
  have hc' := roundDiv_le hpos hscaledHigh
  unfold significant
  simp only [he, hpower, Nat.add_sub_cancel]
  split_ifs with hcarry
  · exact ⟨le_rfl, Nat.pow_lt_pow_right (by decide) (Nat.lt_succ_self k)⟩
  · exact ⟨hc, lt_of_le_of_ne hc' hcarry⟩

theorem numerator_ne_zero {m : Nat} (hm : m ≠ 0) (e : Int) : numerator m e ≠ 0 :=
  Nat.mul_ne_zero hm (Nat.pow_pos (by decide)).ne'

theorem denominator_ne_zero (e : Int) : denominator e ≠ 0 :=
  (Nat.pow_pos (n := (-e).toNat) (by decide : 0 < 2)).ne'

/-- **A number is written with as many digits as asked for.** -/
theorem length_rounded (k m : Nat) (e : Int) : (rounded (k + 1) m e).1.length = k + 1 := by
  unfold rounded
  split_ifs with hm
  · exact List.length_replicate
  · obtain ⟨hlow, hhigh⟩ :=
      coefficient_significant (k := k) (numerator_ne_zero hm e) (denominator_ne_zero e)
    exact digitCount_eq hlow hhigh

theorem rounded_digits (k m : Nat) (e : Int) : ∀ d ∈ (rounded k m e).1, d.isDigit = true := by
  intro d hd
  unfold rounded at hd
  split at hd
  · obtain rfl := List.eq_of_mem_replicate hd
    decide
  · exact Nat.isDigit_of_mem_toDigits (by decide) (by decide) hd

end LinearProgram.Decimal
