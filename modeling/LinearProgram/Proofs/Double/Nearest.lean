import Mathlib
import LinearProgram.Proofs.Double.Rounding
/-!
# The numbers that are rounded to a double

Around every double lies an interval of numbers that are rounded to it (`Reads`).  It ends half
way to the neighbours, and below a power of two the neighbour is only half as far.  The two ends
belong to it if the mantissa is even.

## How the proof goes

`precision` is the power of two of the last bit that rounding keeps.  In the interval it is the
exponent of the double, or one less just below a power of two, where rounding carries into the next
bit (`precision_cases`).  In both cases the scaled number lies next to one integer only
(`roundDiv_eq`).
-/
namespace LinearProgram.Double

open Float.Model Float.Model.UnpackedFloat
open LinearProgram.Decimal (roundDiv)
open LinearProgram.Rounding

/-! ## The nearest integer -/

/-- A fraction within a half of an integer is rounded to it; with an odd integer a half is too
much. -/
theorem roundDiv_eq {a b n : Nat} (hlow : 2 * (n * b) ≤ 2 * a + b) (hhigh : 2 * a ≤ 2 * (n * b) + b)
    (hodd : n % 2 = 1 → 2 * (n * b) < 2 * a + b ∧ 2 * a < 2 * (n * b) + b) (hb : 0 < b) :
    roundDiv a b = n := by
  have hdiv := Nat.div_add_mod a b
  have hmod := Nat.mod_lt a hb
  have hquotient : a / b = n ∨ a / b + 1 = n := by
    have hle : a / b < n + 1 := by
      rw [Nat.div_lt_iff_lt_mul hb, Nat.succ_mul]
      omega
    have hge : n ≤ a / b + 1 := by
      by_contra hlt
      have hmul : (a / b + 1 + 1) * b ≤ n * b := Nat.mul_le_mul_right b (by omega)
      rw [Nat.succ_mul, Nat.succ_mul, Nat.mul_comm] at hmul
      omega
    omega
  have hsucc : (a / b + 1) * b = a / b * b + b := Nat.succ_mul _ _
  rw [Nat.mul_comm] at hdiv
  unfold roundDiv
  dsimp only
  rcases hquotient with rfl | rfl
  · split_ifs <;> omega
  · split_ifs <;> omega

theorem roundDiv_eq_of_div {a b n : Nat} (hb : 0 < b) (hlow : (n : ℚ) - 1 / 2 ≤ (a : ℚ) / b)
    (hhigh : (a : ℚ) / b ≤ n + 1 / 2)
    (hodd : n % 2 = 1 → (n : ℚ) - 1 / 2 < (a : ℚ) / b ∧ (a : ℚ) / b < n + 1 / 2) :
    roundDiv a b = n := by
  have hpos : (0 : ℚ) < b := by exact_mod_cast hb
  rw [le_div_iff₀ hpos] at hlow
  rw [div_le_iff₀ hpos] at hhigh
  rw [lt_div_iff₀ hpos, div_lt_iff₀ hpos] at hodd
  refine roundDiv_eq ?_ ?_ (fun h => ?_) hb
  · have hle : (2 * (n * b) : ℚ) ≤ 2 * a + b := by linarith
    exact_mod_cast hle
  · have hle : (2 * a : ℚ) ≤ 2 * (n * b) + b := by linarith
    exact_mod_cast hle
  · obtain ⟨hlow, hhigh⟩ := hodd h
    have hlt : (2 * (n * b) : ℚ) < 2 * a + b := by linarith
    have hlt' : (2 * a : ℚ) < 2 * (n * b) + b := by linarith
    exact ⟨by exact_mod_cast hlt, by exact_mod_cast hlt'⟩

/-! ## The interval of a double -/

/-- How far the interval of a double reaches down, in units of the last bit. -/
def reach (m : Nat) (e : Int) : ℚ :=
  if m = 2 ^ 52 ∧ -1074 < e then 1 / 4 else 1 / 2

/-- A number in the interval of a double. -/
structure Reads (m : Nat) (e : Int) (x : ℚ) : Prop where
  lower : (m - reach m e) * (2 : ℚ) ^ e ≤ x
  upper : x ≤ (m + 1 / 2) * (2 : ℚ) ^ e
  /-- The ends do not belong to the interval of an odd mantissa. -/
  odd : m % 2 = 1 → (m - reach m e) * (2 : ℚ) ^ e < x ∧ x < (m + 1 / 2) * (2 : ℚ) ^ e

/-- The power of two of the last bit that is left of a positive number. -/
def precision (x : ℚ) : Int :=
  max (Int.log 2 x - 52) (-1074)

section

variable {m : Nat} {e : Int} {x : ℚ}

theorem reach_le (m : Nat) (e : Int) : reach m e ≤ 1 / 2 := by
  unfold reach
  split_ifs <;> norm_num

/-- The leading bit of a fraction is that of its integral part. -/
theorem log_eq_of_div {num den : Nat} (hden : 0 < den) (hm : num / den ≠ 0) (e : Int) :
    Int.log 2 ((num : ℚ) / den * (2 : ℚ) ^ e) = (num / den).log2 + e := by
  have hpos : (0 : ℚ) < den := by exact_mod_cast hden
  obtain ⟨hlow, hhigh⟩ := (Nat.log2_eq_iff hm).mp rfl
  have hle : ((2 ^ (num / den).log2 : Nat) : ℚ) ≤ (num : ℚ) / den := by
    rw [le_div_iff₀ hpos]
    exact_mod_cast (Nat.le_div_iff_mul_le hden).mp hlow
  have hlt : (num : ℚ) / den < ((2 ^ ((num / den).log2 + 1) : Nat) : ℚ) := by
    rw [div_lt_iff₀ hpos]
    exact_mod_cast (Nat.div_lt_iff_lt_mul hden).mp hhigh
  refine log_eq one_lt_two ?_ ?_ ?_
  · have hnum : (0 : ℚ) < (num : ℚ) / den := lt_of_lt_of_le (by positivity) hle
    positivity
  · rw [Nat.cast_ofNat, zpow_add₀ two_ne_zero, zpow_natCast]
    push_cast at hle
    gcongr
  · rw [Nat.cast_ofNat, add_right_comm, zpow_add₀ two_ne_zero, ← Nat.cast_succ, zpow_natCast]
    push_cast at hlt
    gcongr

/-- In its interval a number has the last bit of the double, or one more bit just below a power of
two. -/
theorem precision_cases (hm : IsCanonical m e) (hpos : 0 < m) (h : Reads m e x) :
    0 < x ∧ (precision x = e ∨
      m = 2 ^ 52 ∧ precision x = e - 1 ∧ reach m e = 1 / 4 ∧ x < (2 : ℚ) ^ 52 * (2 : ℚ) ^ e) := by
  obtain ⟨hbits, hleast, hfull⟩ := hm
  have hunit : (0 : ℚ) < (2 : ℚ) ^ e := by positivity
  have hone : (1 : ℚ) ≤ m := by exact_mod_cast hpos
  have hreach := reach_le m e
  have hx : 0 < x := lt_of_lt_of_le (mul_pos (by linarith) hunit) h.lower
  have hpow : ∀ k : Nat, (2 : ℚ) ^ ((k : Int) + e) = (2 : ℚ) ^ k * (2 : ℚ) ^ e := fun k => by
    rw [zpow_add₀ two_ne_zero, zpow_natCast]
  have hlow : ∀ k : Nat, (2 : ℚ) ^ k ≤ m - reach m e → (k : Int) + e ≤ Int.log 2 x := by
    intro k hk
    refine (Int.zpow_le_iff_le_log one_lt_two hx).mp ?_
    rw [Nat.cast_ofNat, hpow]
    exact (mul_le_mul_of_nonneg_right hk hunit.le).trans h.lower
  have hhigh : Int.log 2 x < 53 + e := by
    refine (Int.lt_zpow_iff_log_lt one_lt_two hx).mp ?_
    have hlt : (m : ℚ) + 1 / 2 < 2 ^ 53 := by
      have hle : (m : ℚ) + 1 ≤ 2 ^ 53 := by exact_mod_cast hbits
      linarith
    calc x ≤ (m + 1 / 2) * (2 : ℚ) ^ e := h.upper
      _ < (2 : ℚ) ^ 53 * (2 : ℚ) ^ e := mul_lt_mul_of_pos_right hlt hunit
      _ = ((2 : Nat) : ℚ) ^ (53 + e) := by rw [Nat.cast_ofNat, ← hpow]; rfl
  refine ⟨hx, ?_⟩
  unfold precision
  obtain rfl | hleast := hleast.eq_or_lt
  · exact .inl (by omega)
  · have hfull := hfull.resolve_right hleast.ne'
    obtain rfl | hfull := hfull.eq_or_lt
    · have hquarter : reach (2 ^ 52) e = 1 / 4 := if_pos ⟨rfl, hleast⟩
      have hlog := hlow 51 (by rw [hquarter]; norm_num)
      by_cases hbelow : x < (2 : ℚ) ^ 52 * (2 : ℚ) ^ e
      · have hlog' : Int.log 2 x < 52 + e := by
          refine (Int.lt_zpow_iff_log_lt one_lt_two hx).mp ?_
          rw [Nat.cast_ofNat]
          exact hbelow.trans_eq (hpow 52).symm
        exact .inr ⟨rfl, by omega, hquarter, hbelow⟩
      · have hlog' : 52 + e ≤ Int.log 2 x := by
          refine (Int.zpow_le_iff_le_log one_lt_two hx).mp ?_
          rw [Nat.cast_ofNat]
          exact (hpow 52).trans_le (not_lt.mp hbelow)
        exact .inl (by omega)
    · have hlog := hlow 52 (by
        have hle : (2 : ℚ) ^ 52 + 1 ≤ m := by exact_mod_cast hfull
        linarith)
      exact .inl (by omega)

/-- Rounding shifts to this last bit. -/
theorem targetExponent_eq {num den : Nat} (hnum : 0 < num) (hden : 0 < den)
    (he : e ≤ precision ((num : ℚ) / den * (2 : ℚ) ^ e)) :
    Format.binary64.targetExponent (totalExponent (num / den) e) =
      precision ((num : ℚ) / den * (2 : ℚ) ^ e) := by
  have hmin : Format.binary64.minExponent = -1074 := by decide
  have hbits : Format.binary64.mantissaBits = 53 := by decide
  have hunit : (0 : ℚ) < (2 : ℚ) ^ e := by positivity
  rw [Format.targetExponent, totalExponent, hmin, hbits]
  unfold precision at he ⊢
  by_cases hzero : num / den = 0
  · -- The number is less than the last bit, which can only be the least of all.
    have hlog : Int.log 2 ((num : ℚ) / den * (2 : ℚ) ^ e) < e := by
      have hlt : (num : ℚ) / den < 1 := by
        rw [div_lt_one (by exact_mod_cast hden)]
        exact_mod_cast (Nat.div_eq_zero_iff_lt hden).mp hzero
      refine (Int.lt_zpow_iff_log_lt one_lt_two (by positivity)).mp ?_
      rw [Nat.cast_ofNat]
      exact mul_lt_of_lt_one_left hunit hlt
    rw [hzero, Nat.log2_zero]
    omega
  · rw [log_eq_of_div hden hzero] at he ⊢
    omega

/-- A canonical mantissa is not shifted any more. -/
theorem shiftToTargetExponent_canonical (hm : IsCanonical m e) (hpos : 0 < m) :
    shiftToTargetExponent .binary64 m e .exact = (⟨m, false, false⟩, e) := by
  have hmin : Format.binary64.minExponent = -1074 := by decide
  have hbits : Format.binary64.mantissaBits = 53 := by decide
  have hlog : m.log2 < 53 := (Nat.log2_lt hpos.ne').mpr hm.1
  have hleast := hm.2.1
  have htarget : (Format.binary64.targetExponent (totalExponent m e) - e).toNat = 0 := by
    rw [Format.targetExponent, totalExponent, hmin, hbits]
    omega
  rw [shiftToTargetExponent, shiftToExponent, htarget, Nat.cast_zero, add_zero]
  rfl

/-- A carry into the 54th bit is shifted out. -/
theorem shiftToTargetExponent_carried (he : -1074 < e) :
    let shifted := shiftToTargetExponent .binary64 (2 ^ 53) (e - 1) .exact
    shifted.1.mantissa = 2 ^ 52 ∧ shifted.2 = e := by
  have hlog : (2 ^ 53).log2 = 53 := by decide
  have hmantissa := (represents_shiftRight (2 ^ 53) 1).mantissa
  rw [shiftToTargetExponent_eq (by omega) (by omega), hlog]
  exact ⟨hmantissa, by omega⟩

/-- With its last bit as the unit, a number in the interval is next to the mantissa. -/
theorem roundDiv_of_reads {a b : Nat} (hb : 0 < b) (h : Reads m e ((a : ℚ) / b * (2 : ℚ) ^ e)) :
    roundDiv a b = m := by
  have hunit : (0 : ℚ) < (2 : ℚ) ^ e := by positivity
  have hreach := reach_le m e
  obtain ⟨hlower, hupper, hodd⟩ := h
  rw [mul_le_mul_iff_left₀ hunit] at hlower hupper
  rw [mul_lt_mul_iff_left₀ hunit, mul_lt_mul_iff_left₀ hunit] at hodd
  refine roundDiv_eq_of_div hb ?_ ?_ fun h => ?_
  · linarith
  · linarith
  · obtain ⟨hlow, hhigh⟩ := hodd h
    constructor <;> linarith

/-- With one more bit, a number just below a power of two is next to this power. -/
theorem roundDiv_of_reads_below {a b : Nat} (hb : 0 < b)
    (h : Reads (2 ^ 52) e ((a : ℚ) / b * (2 : ℚ) ^ (e - 1))) (hquarter : reach (2 ^ 52) e = 1 / 4)
    (hbelow : (a : ℚ) / b * (2 : ℚ) ^ (e - 1) < (2 : ℚ) ^ 52 * (2 : ℚ) ^ e) :
    roundDiv a b = 2 ^ 53 := by
  have hunit : (0 : ℚ) < (2 : ℚ) ^ (e - 1) := by positivity
  have hpow : (2 : ℚ) ^ e = 2 * (2 : ℚ) ^ (e - 1) := by
    rw [← zpow_one_add₀ two_ne_zero]
    congr 1
    omega
  have hlower := h.lower
  rw [hpow, ← mul_assoc, mul_le_mul_iff_left₀ hunit, hquarter] at hlower
  rw [hpow, ← mul_assoc, mul_lt_mul_iff_left₀ hunit] at hbelow
  push_cast at hlower
  refine roundDiv_eq_of_div hb ?_ ?_ fun h => absurd h (by decide)
  · push_cast
    linarith
  · push_cast
    linarith

/-- **Every number in the interval of a double is rounded to it.** -/
theorem roundWithAccuracy_of_reads (s : Sign) {n : Nat} {d : Int} {acc : Accuracy} {num den : Nat}
    (hacc : Represents (ExtendedMantissa.ofMantissaAndAccuracy n acc) num den) (hnum : 0 < num)
    (hden : 0 < den) (hd : d ≤ precision ((num : ℚ) / den * (2 : ℚ) ^ d)) (hm : IsCanonical m e)
    (hpos : 0 < m) (h : Reads m e ((num : ℚ) / den * (2 : ℚ) ^ d)) :
    roundWithAccuracy .binary64 s n d acc = .finite s m e hpos := by
  obtain ⟨_, hcases⟩ := precision_cases hm hpos h
  have htarget := targetExponent_eq hnum hden hd
  have hn : n = num / den := by
    rw [← hacc.mantissa]
    cases acc with
    | exact => rfl
    | inexact o => cases o <;> rfl
  have hleast : -1074 ≤ precision ((num : ℚ) / den * (2 : ℚ) ^ d) := le_max_right ..
  generalize hp : precision ((num : ℚ) / den * (2 : ℚ) ^ d) = p at hcases htarget hd hleast
  obtain ⟨k, hk⟩ : ∃ k : Nat, p - d = k := Int.eq_ofNat_of_zero_le (by omega)
  have hden' : 0 < den * 2 ^ k := Nat.mul_pos hden (Nat.two_pow_pos k)
  have hshift : shiftToTargetExponent .binary64 n d acc =
      (ExtendedMantissa.ofMantissaAndAccuracy n acc >>> k, p) := by
    rw [shiftToTargetExponent, shiftToExponent, hn, htarget, hk, Int.toNat_natCast, ← hk,
      add_sub_cancel]
  -- After the shift one unit of the mantissa is the last bit.
  have hscaled : (num : ℚ) / den * (2 : ℚ) ^ d = (num : ℚ) / (den * 2 ^ k : Nat) * (2 : ℚ) ^ p := by
    have hpow : (2 : ℚ) ^ p = (2 : ℚ) ^ k * (2 : ℚ) ^ d := by
      rw [← zpow_natCast, ← zpow_add₀ two_ne_zero]
      congr 1
      omega
    rw [hpow]
    push_cast
    field_simp
  rw [hscaled] at h hcases
  unfold roundWithAccuracy
  simp only [hshift, roundedMantissa_eq (hacc.shiftRight hden k)]
  rcases hcases with rfl | ⟨rfl, rfl, hquarter, hbelow⟩
  · simp only [roundDiv_of_reads hden' h, shiftToTargetExponent_canonical hm hpos]
    rw [dif_neg hpos.ne']
  · obtain ⟨hmantissa, hexponent⟩ := shiftToTargetExponent_carried (e := e) (by omega)
    simp only [roundDiv_of_reads_below hden' h hquarter hbelow, hmantissa, hexponent]
    rw [dif_neg hpos.ne']

end

end LinearProgram.Double
