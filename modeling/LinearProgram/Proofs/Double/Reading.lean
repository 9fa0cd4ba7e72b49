import Mathlib
import LinearProgram.Proofs.Double.Integer
import LinearProgram.Proofs.Double.Nearest
import LinearProgram.Proofs.Double.Zero
import LinearProgram.Proofs.Decimal.Significant
import LinearProgram.Text.Numeral
/-!
# Decimals are read as the nearest double

A decimal that lies in the interval of a double is read as this double (`realOfDecimal_of_reads`).

## How the proof goes

A decimal becomes a double in one of four ways.  A short one is the product or the quotient of two
doubles that stand for its digits and for the power of ten without any error.  Any other is
computed from the digits and the power themselves.  So each way is one operation on exact values,
which is rounded once (`mul_of_reads`, `div_of_reads`).
-/
namespace LinearProgram.Double

open Float.Model Float.Model.UnpackedFloat
open LinearProgram.Rounding
open LinearProgram.Decimal (reading)
open LinearProgram.Text (realOfDecimal)

/-! ## One operation -/

/-- The accuracy of a quotient is that of its fraction. -/
theorem represents_quotient (num : Nat) {den : Nat} (hden : 0 < den) :
    Represents (ExtendedMantissa.ofMantissaAndAccuracy (num / den)
      (accuracyOfFraction (num % den) den)) num den := by
  unfold accuracyOfFraction
  by_cases hzero : num % den = 0
  · rw [if_pos hzero]
    refine ⟨rfl, ?_, ?_⟩
    · simp [ExtendedMantissa.ofMantissaAndAccuracy, hzero, hden.ne']
    · simp [ExtendedMantissa.ofMantissaAndAccuracy, hzero]
  · rw [if_neg hzero]
    obtain h | h | h := lt_trichotomy (2 * (num % den)) den
    · rw [compare_lt_iff_lt.mpr h]
      exact ⟨rfl, (decide_eq_false h.not_ge).symm, (decide_eq_true ⟨hzero, h.ne⟩).symm⟩
    · rw [compare_eq_iff_eq.mpr h]
      exact ⟨rfl, (decide_eq_true h.ge).symm, (decide_eq_false fun hne => hne.2 h).symm⟩
    · rw [compare_gt_iff_gt.mpr h]
      exact ⟨rfl, (decide_eq_true h.le).symm, (decide_eq_true ⟨hzero, h.ne'⟩).symm⟩

/-- A quotient has at most one bit less than the difference of the bits. -/
theorem log_sub_le_log_div {x y : ℚ} (hx : 0 < x) (hy : 0 < y) :
    Int.log 2 x - Int.log 2 y - 1 ≤ Int.log 2 (x / y) := by
  refine (Int.zpow_le_iff_le_log one_lt_two (div_pos hx hy)).mp ?_
  have hlow := Int.zpow_log_le_self one_lt_two hx
  have hhigh := (Int.lt_zpow_succ_log_self one_lt_two y).le
  rw [Nat.cast_ofNat] at hlow hhigh ⊢
  rw [le_div_iff₀ hy]
  calc (2 : ℚ) ^ (Int.log 2 x - Int.log 2 y - 1) * y
      ≤ (2 : ℚ) ^ (Int.log 2 x - Int.log 2 y - 1) * (2 : ℚ) ^ (Int.log 2 y + 1) := by gcongr
    _ = (2 : ℚ) ^ Int.log 2 x := by
        rw [← zpow_add₀ two_ne_zero]
        congr 1
        omega
    _ ≤ x := hlow

section

variable {m : Nat} {e : Int} (hm : IsCanonical m e) (hpos : 0 < m)

include hm

/-- A mantissa with at least 53 bits is rounded to the double in whose interval it lies. -/
theorem roundWithAccuracy_exact_of_reads (s : Sign) {n : Nat} {d : Int} (hn : 52 ≤ n.log2)
    (h : Reads m e (n * (2 : ℚ) ^ d)) :
    roundWithAccuracy .binary64 s n d .exact = .finite s m e hpos := by
  have hne := ne_zero_of_log2 (by decide) hn
  have hfraction : ((n : ℚ) / (1 : Nat)) * (2 : ℚ) ^ d = n * (2 : ℚ) ^ d := by
    rw [Nat.cast_one, div_one]
  refine roundWithAccuracy_of_reads s (represents_exact n) (Nat.pos_of_ne_zero hne) Nat.one_pos ?_
    hm hpos ?_
  · rw [hfraction, precision, intLog_eq hne]
    omega
  · rwa [hfraction]

theorem mul_of_reads {s₁ s₂ : Sign} {m₁ m₂ : Nat} {e₁ e₂ : Int} (h₁ : 0 < m₁) (h₂ : 0 < m₂)
    (hbits : 52 ≤ (m₁ * m₂).log2)
    (h : Reads m e ((m₁ * (2 : ℚ) ^ e₁) * (m₂ * (2 : ℚ) ^ e₂))) :
    UnpackedFloat.mul .binary64 (.finite s₁ m₁ e₁ h₁) (.finite s₂ m₂ e₂ h₂) =
      .finite (s₁ * s₂) m e hpos := by
  refine roundWithAccuracy_exact_of_reads hm hpos _ hbits ?_
  rwa [Nat.cast_mul, zpow_add₀ two_ne_zero, mul_mul_mul_comm]

/-- A quotient is computed with as many bits as rounding needs. -/
theorem div_of_reads {s₁ s₂ : Sign} {m₁ m₂ : Nat} {e₁ e₂ : Int} (h₁ : 0 < m₁) (h₂ : 0 < m₂)
    (h : Reads m e ((m₁ * (2 : ℚ) ^ e₁) / (m₂ * (2 : ℚ) ^ e₂))) :
    UnpackedFloat.div .binary64 (.finite s₁ m₁ e₁ h₁) (.finite s₂ m₂ e₂ h₂) =
      .finite (s₁ / s₂) m e hpos := by
  have hmin : Format.binary64.minExponent = -1074 := by decide
  have hbits : Format.binary64.mantissaBits = 53 := by decide
  have hlog := log_sub_le_log_div (x := m₁ * (2 : ℚ) ^ e₁) (y := m₂ * (2 : ℚ) ^ e₂)
    (by positivity) (by positivity)
  rw [intLog_eq h₁.ne', intLog_eq h₂.ne'] at hlog
  unfold UnpackedFloat.div divCore
  dsimp only
  generalize htarget : min (e₁ - e₂)
    (Format.binary64.targetExponent (totalExponent m₁ e₁ - totalExponent m₂ e₂)) = d
  rw [Format.targetExponent, totalExponent, totalExponent, hmin, hbits] at htarget
  obtain ⟨k, hk⟩ : ∃ k : Nat, e₁ - e₂ - d = k := Int.eq_ofNat_of_zero_le (by omega)
  have hvalue : ((m₁ <<< k : Nat) : ℚ) / m₂ * (2 : ℚ) ^ d =
      (m₁ * (2 : ℚ) ^ e₁) / (m₂ * (2 : ℚ) ^ e₂) := by
    have hpow : (2 : ℚ) ^ e₁ = (2 : ℚ) ^ k * (2 : ℚ) ^ d * (2 : ℚ) ^ e₂ := by
      rw [← zpow_natCast, ← zpow_add₀ two_ne_zero, ← zpow_add₀ two_ne_zero]
      congr 1
      omega
    have hne : (2 : ℚ) ^ e₂ ≠ 0 := by positivity
    have hne' : (m₂ : ℚ) ≠ 0 := by exact_mod_cast h₂.ne'
    rw [hpow, Nat.shiftLeft_eq]
    push_cast
    field_simp
  rw [hk, Int.toNat_natCast]
  refine roundWithAccuracy_of_reads _ (represents_quotient (m₁ <<< k) h₂) ?_ h₂ ?_ hm hpos ?_
  · rw [Nat.shiftLeft_eq]
    positivity
  · rw [hvalue, precision]
    omega
  · rwa [hvalue]

end

/-! ## Packing -/

/-- A mantissa without its leading bit is packed under the exponent zero. -/
theorem unpack_packComponents_zero (s : Sign) {m : Nat} (hpos : 0 < m) (hm : m < 2 ^ 52) :
    UnpackedFloat.unpack .binary64 (packComponents .binary64 s 0#11 (BitVec.ofNat 52 m)) =
      .finite s m (-1074) hpos := by
  have hbias : Format.binary64.exponentBias = 1023 := by decide
  have htoNat : (BitVec.ofNat 52 m).toNat = m := by
    rw [BitVec.toNat_ofNat, Nat.mod_eq_of_lt hm]
  have hzero : BitVec.ofNat 52 m ≠ 0#52 := by
    intro heq
    have hzeros : (0#52).toNat = 0 := by decide
    rw [heq, hzeros] at htoNat
    omega
  unfold UnpackedFloat.unpack
  simp only [unpackExponent_packComponents, unpackMantissa_packComponents,
    unpackSign_packComponents, hbias, htoNat]
  rw [if_neg (by decide), if_pos trivial, dif_neg hzero]
  rfl

/-- **A canonical double is packed without any loss.** -/
theorem unpack_pack (s : Sign) {m : Nat} {e : Int} (hm : IsCanonical m e) (hpos : 0 < m)
    (he : e ≤ 971) : (Float.Model.pack (.finite s m e hpos)).unpack = .finite s m e hpos := by
  have hbias : Format.binary64.exponentBias = 1023 := by decide
  have hunpack : (Float.Model.pack (.finite s m e hpos)).unpack =
      UnpackedFloat.unpack .binary64 (UnpackedFloat.pack .binary64 (.finite s m e hpos)) := rfl
  obtain ⟨hbits, hleast, hfull⟩ := hm
  have hover : ¬ 2 ^ 11 ≤ (e + 1023 + 52).toNat + 1 := by omega
  rw [hunpack]
  by_cases hlog : m.log2 = 52
  · have hpack : UnpackedFloat.pack .binary64 (.finite s m e hpos) =
        packComponents .binary64 s (BitVec.ofNat 11 (e + 1023 + 52).toNat) (BitVec.ofNat 52 m) :=
      (if_neg hover).trans (if_pos (by rw [hlog]; rfl))
    obtain ⟨_, hread⟩ := unpack_packComponents s hlog (b := (e + 1023 + 52).toNat) (by omega)
      (by omega)
    have hexponent : ((e + 1023 + 52).toNat : Int) - 1075 = e := by omega
    rw [hpack, hread]
    congr 1
  · have hsmall : m < 2 ^ 52 := by
      by_contra hge
      exact hlog ((Nat.log2_eq_iff hpos.ne').mpr ⟨not_lt.mp hge, hbits⟩)
    obtain rfl := hfull.resolve_left (not_le.mpr hsmall)
    have hpack : UnpackedFloat.pack .binary64 (.finite s m (-1074) hpos) =
        packComponents .binary64 s 0#11 (BitVec.ofNat 52 m) := by
      have hbits : ¬ m.log2 + 1 = Format.binary64.mantissaBits := fun heq =>
        hlog (Nat.succ.inj heq)
      unfold UnpackedFloat.pack
      rw [hbias]
      exact (if_neg hover).trans (if_neg hbits)
    rw [hpack, unpack_packComponents_zero s hpos hsmall]

/-! ## Exact doubles -/

/-- A double lies in its own interval. -/
theorem reads_self (m : Nat) (e : Int) : Reads m e (m * (2 : ℚ) ^ e) := by
  have hunit : (0 : ℚ) < (2 : ℚ) ^ e := by positivity
  have hreach : 0 < reach m e := by
    unfold reach
    split_ifs <;> norm_num
  have hlow : (m - reach m e) * (2 : ℚ) ^ e < m * (2 : ℚ) ^ e := by
    gcongr
    linarith
  have hhigh : (m : ℚ) * (2 : ℚ) ^ e < (m + 1 / 2) * (2 : ℚ) ^ e := by
    gcongr
    linarith
  exact ⟨hlow.le, hhigh.le, fun _ => ⟨hlow, hhigh⟩⟩

/-- A double with a full mantissa and a value. -/
def IsExact (x : Float) (q : ℚ) : Prop :=
  ∃ m e h, x.toModel.unpack = .finite .positive m e h ∧ m.log2 = 52 ∧ (m : ℚ) * (2 : ℚ) ^ e = q

/-- A small integer becomes a double without any error. -/
theorem isExact_toFloat {n : Nat} (hne : n ≠ 0) (hsmall : n < 2 ^ 53) :
    IsExact n.toUInt64.toFloat n := by
  have hlog : n.log2 < 53 := (Nat.log2_lt hne).mpr hsmall
  have htarget : Format.binary64.targetExponent (totalExponent n 0) = n.log2 - 52 := by
    have hmin : Format.binary64.minExponent = -1074 := by decide
    have hbits : Format.binary64.mantissaBits = 53 := by decide
    rw [Format.targetExponent, totalExponent, hmin, hbits]
    omega
  obtain ⟨k, hk⟩ : ∃ k : Nat, n.log2 + k = 52 := ⟨52 - n.log2, by omega⟩
  have hbits : (n * 2 ^ k).log2 = 52 := by rw [log2_mul_two_pow hne, hk]
  have hpos : 0 < n * 2 ^ k := by positivity
  have hcanonical : IsCanonical (n * 2 ^ k) (-k) := by
    obtain ⟨hlow, hhigh⟩ := (Nat.log2_eq_iff hpos.ne').mp hbits
    exact ⟨hhigh, by omega, .inl hlow⟩
  have hround : UnpackedFloat.round .binary64 .positive n 0 =
      .finite .positive (n * 2 ^ k) (-k) hpos := by
    have hamount : (0 - ((n.log2 : Int) - 52)).toNat = k := by omega
    unfold UnpackedFloat.round
    simp only [htarget, decreaseExponent, hamount, Nat.shiftLeft_eq]
    rw [zero_sub]
    exact roundWithAccuracy_exact_of_reads hcanonical hpos .positive hbits.ge (reads_self _ _)
  refine ⟨n * 2 ^ k, -k, hpos, ?_, hbits, ?_⟩
  · rw [toModel_toFloat hne hsmall, hround, unpack_pack _ hcanonical hpos (by omega)]
  · push_cast
    rw [zpow_neg, zpow_natCast]
    exact mul_inv_cancel_right₀ (by positivity) _

/-- Whether a double is an integer with a full mantissa. -/
def isFull (n : Nat) : UnpackedFloat → Bool
  | .finite .positive m e _ => m.log2 = 52 && -52 ≤ e && m * 2 ^ (e + 52).toNat = n * 2 ^ 52
  | _ => false

theorem isExact_of_isFull {x : Float} {n : Nat} (h : isFull n x.toModel.unpack = true) :
    IsExact x n := by
  unfold isFull at h
  split at h
  · next m e hpos hunpack =>
    simp only [Bool.and_eq_true, decide_eq_true_eq, and_assoc] at h
    obtain ⟨hlog, hleast, hvalue⟩ := h
    refine ⟨m, e, hpos, hunpack, hlog, ?_⟩
    obtain ⟨k, hk⟩ : ∃ k : Nat, e + 52 = k := Int.eq_ofNat_of_zero_le (by omega)
    obtain rfl : e = k - 52 := by omega
    rw [hk, Int.toNat_natCast] at hvalue
    have hcast : (m : ℚ) * 2 ^ k = n * 2 ^ 52 := by exact_mod_cast hvalue
    rw [zpow_sub₀ two_ne_zero, zpow_natCast, ← mul_div_assoc, hcast, div_eq_iff (by positivity)]
    norm_cast
  · cases h

theorem isFull_powers : ∀ k : Fin Float.exactlyRepresentablePowersOfTen.size,
    isFull (10 ^ k.val) Float.exactlyRepresentablePowersOfTen[k].toModel.unpack = true := by
  decide +kernel

/-- The powers of ten in the table are exact. -/
theorem isExact_power {k : Nat} (hk : k < Float.exactlyRepresentablePowersOfTen.size) :
    IsExact Float.exactlyRepresentablePowersOfTen[k] ((10 ^ k : Nat) : ℚ) :=
  isExact_of_isFull (isFull_powers ⟨k, hk⟩)

/-! ## Decimals -/

/-- Half of the least double is greater than this power of ten. -/
theorem pow_lt_half_least : (10 : ℚ) ^ (-331 : Int) < 1 / 2 * (2 : ℚ) ^ (-1074 : Int) := by
  have hnat : 2 ^ 1075 < 10 ^ 331 := by decide +kernel
  have hcast : (2 : ℚ) ^ 1075 < 10 ^ 331 := by exact_mod_cast hnat
  have hhalf : 1 / 2 * (2 : ℚ) ^ (-1074 : Int) = ((2 : ℚ) ^ 1075)⁻¹ := by
    rw [pow_succ, mul_inv_rev, zpow_neg, one_div]
    rfl
  rw [hhalf, zpow_neg]
  exact (inv_lt_inv₀ (by positivity) (by positivity)).mpr hcast

/-- No double is greater than this power of ten. -/
theorem greatest_le_pow : (2 : ℚ) ^ 53 * (2 : ℚ) ^ (971 : Int) ≤ (10 : ℚ) ^ (310 : Int) := by
  have hnat : 2 ^ 53 * 2 ^ 971 ≤ 10 ^ 310 := by decide +kernel
  exact_mod_cast hnat

/-- The power of ten of the first digit is within the range that is computed. -/
theorem top_of_size {c a : Nat} {p : Int} (hlow : (10 : ℚ) ^ (a : ℤ) ≤ c)
    (hhigh : (c : ℚ) < (10 : ℚ) ^ ((a : ℤ) + 1))
    (hx : 1 / 2 * (2 : ℚ) ^ (-1074 : Int) ≤ c * (10 : ℚ) ^ p)
    (hx' : c * (10 : ℚ) ^ p < (2 : ℚ) ^ 53 * (2 : ℚ) ^ (971 : Int)) :
    -330 ≤ (a + 1 : Int) + p ∧ (a + 1 : Int) + p ≤ 310 := by
  have hten : (0 : ℚ) < (10 : ℚ) ^ p := by positivity
  constructor
  · by_contra hlt
    have hle : c * (10 : ℚ) ^ p ≤ (10 : ℚ) ^ (-331 : Int) := by
      calc c * (10 : ℚ) ^ p ≤ (10 : ℚ) ^ ((a : ℤ) + 1) * (10 : ℚ) ^ p := by gcongr
        _ = (10 : ℚ) ^ ((a : ℤ) + 1 + p) := (zpow_add₀ (by norm_num) _ _).symm
        _ ≤ (10 : ℚ) ^ (-331 : Int) := by
            gcongr
            · norm_num
            · omega
    exact absurd (hx.trans hle) (not_le.mpr pow_lt_half_least)
  · by_contra hlt
    have hle : (10 : ℚ) ^ (310 : Int) ≤ c * (10 : ℚ) ^ p := by
      calc (10 : ℚ) ^ (310 : Int) ≤ (10 : ℚ) ^ ((a : ℤ) + p) := by
            gcongr
            · norm_num
            · omega
        _ = (10 : ℚ) ^ (a : ℤ) * (10 : ℚ) ^ p := zpow_add₀ (by norm_num) _ _
        _ ≤ c * (10 : ℚ) ^ p := by gcongr
    exact absurd (hle.trans_lt hx') (not_lt.mpr greatest_le_pow)

section

variable {m : Nat} {e : Int} (hm : IsCanonical m e) (hpos : 0 < m)

include hm

theorem toModel_mul_of_reads {x y : Float} {q r : ℚ} (hx : IsExact x q) (hy : IsExact y r)
    (h : Reads m e (q * r)) : (x * y).toModel = Float.Model.pack (.finite .positive m e hpos) := by
  obtain ⟨m₁, e₁, h₁, hx, hlog, rfl⟩ := hx
  obtain ⟨m₂, e₂, h₂, hy, _, rfl⟩ := hy
  have hbits : 52 ≤ (m₁ * m₂).log2 := by
    rw [Nat.le_log2 (Nat.mul_pos h₁ h₂).ne']
    exact ((Nat.le_log2 h₁.ne').mp hlog.ge).trans (Nat.le_mul_of_pos_right m₁ h₂)
  show Float.Model.pack (UnpackedFloat.mul .binary64 x.toModel.unpack y.toModel.unpack) = _
  rw [hx, hy, mul_of_reads hm hpos h₁ h₂ hbits h]
  rfl

theorem toModel_div_of_reads {x y : Float} {q r : ℚ} (hx : IsExact x q) (hy : IsExact y r)
    (h : Reads m e (q / r)) : (x / y).toModel = Float.Model.pack (.finite .positive m e hpos) := by
  obtain ⟨m₁, e₁, h₁, hx, _, rfl⟩ := hx
  obtain ⟨m₂, e₂, h₂, hy, _, rfl⟩ := hy
  show Float.Model.pack (UnpackedFloat.div .binary64 x.toModel.unpack y.toModel.unpack) = _
  rw [hx, hy, div_of_reads hm hpos h₁ h₂ h]
  rfl

/-- A long decimal is computed from its digits and its power of ten. -/
theorem unpacked_ofScientific_of_reads {c : Nat} {p : Int} (hc : c ≠ 0)
    (hlow : -2048 - (c.log2 : Int) ≤ p) (hhigh : p ≤ 2048) (h : Reads m e (c * (10 : ℚ) ^ p)) :
    UnpackedFloat.ofScientific .binary64 c p = .finite .positive m e hpos := by
  have hbits : Format.binary64.mantissaBits = 53 := by decide
  have hexponent : (2 : Int) ^ Format.binary64.exponentBits = 2048 := by decide
  have hc' : 0 < c := Nat.pos_of_ne_zero hc
  unfold UnpackedFloat.ofScientific
  rw [dif_neg hc, if_neg (by omega), if_neg (by omega)]
  split_ifs with hp
  · obtain ⟨k, rfl⟩ := Int.eq_ofNat_of_zero_le hp
    have hvalue : ((c <<< Format.binary64.mantissaBits : Nat) : ℚ) *
        (2 : ℚ) ^ (-(Format.binary64.mantissaBits : Int)) *
          (((10 ^ k : Nat) : ℚ) * (2 : ℚ) ^ (0 : Int)) = c * (10 : ℚ) ^ (k : Int) := by
      rw [hbits, Nat.shiftLeft_eq, zpow_neg, zpow_zero, mul_one, zpow_natCast, zpow_natCast]
      have hone : ((2 ^ 53 : Nat) : ℚ) * (2 ^ 53)⁻¹ = 1 := by norm_num
      rw [Nat.cast_mul, mul_assoc (c : ℚ), hone, mul_one, Nat.cast_pow]
      rfl
    have hlog : 52 ≤ (c <<< Format.binary64.mantissaBits * 10 ^ k).log2 := by
      rw [hbits, Nat.shiftLeft_eq, Nat.le_log2 (by positivity)]
      calc 2 ^ 52 ≤ 1 * 2 ^ 53 * 1 := by decide
        _ ≤ c * 2 ^ 53 * 10 ^ k := by
            gcongr
            · exact hc'
            · exact Nat.one_le_pow _ _ (by decide)
    rw [← hvalue] at h
    exact mul_of_reads hm hpos _ _ hlog h
  · obtain ⟨k, hk⟩ : ∃ k : Nat, -p = k := Int.eq_ofNat_of_zero_le (by omega)
    have hvalue : (c : ℚ) * (2 : ℚ) ^ (0 : Int) / (((10 ^ (-p).toNat : Nat) : ℚ) *
        (2 : ℚ) ^ (0 : Int)) = c * (10 : ℚ) ^ p := by
      rw [show p = -(k : Int) by omega, neg_neg, Int.toNat_natCast, zpow_zero, mul_one, mul_one,
        zpow_neg, zpow_natCast, ← div_eq_mul_inv]
      push_cast
      rfl
    rw [← hvalue] at h
    exact div_of_reads hm hpos _ _ h

/-- **A decimal in the interval of a double is read as this double.** -/
theorem toModel_ofScientific_of_reads {c : Nat} {p : Int} (hc : c ≠ 0)
    (hlow : -2048 - (c.log2 : Int) ≤ p) (hhigh : p ≤ 2048) (h : Reads m e (c * (10 : ℚ) ^ p)) :
    (Float.ofScientific c (p < 0) p.natAbs).toModel =
      Float.Model.pack (.finite .positive m e hpos) := by
  have hsize : Float.exactlyRepresentablePowersOfTen.size = 23 := by decide
  unfold Float.ofScientific
  by_cases hshort : c < 2 ^ 53 ∧ p.natAbs ≤ 22
  · have hk : p.natAbs < Float.exactlyRepresentablePowersOfTen.size := by omega
    have hdigits := isExact_toFloat hc hshort.1
    rw [dif_pos hshort]
    by_cases hp : p < 0
    · have hvalue : (c : ℚ) / ((10 ^ p.natAbs : Nat) : ℚ) = c * (10 : ℚ) ^ p := by
        obtain ⟨k, hk⟩ : ∃ k : Nat, -p = k := Int.eq_ofNat_of_zero_le (by omega)
        rw [show p = -(k : Int) by omega, Int.natAbs_neg, Int.natAbs_natCast, zpow_neg,
          zpow_natCast, ← div_eq_mul_inv]
        push_cast
        rfl
      simp only [hp, decide_true, if_true]
      exact toModel_div_of_reads hm hpos hdigits (isExact_power hk) (hvalue ▸ h)
    · have hvalue : (c : ℚ) * ((10 ^ p.natAbs : Nat) : ℚ) = c * (10 : ℚ) ^ p := by
        obtain ⟨k, rfl⟩ := Int.eq_ofNat_of_zero_le (not_lt.mp hp)
        rw [Int.natAbs_natCast, zpow_natCast]
        push_cast
        rfl
      simp only [hp, decide_false]
      exact toModel_mul_of_reads hm hpos hdigits (isExact_power hk) (hvalue ▸ h)
  · have hsign : (if decide (p < 0) = true then Int.negOfNat p.natAbs else Int.ofNat p.natAbs) =
        p := by
      by_cases hp : p < 0
      · rw [if_pos (decide_eq_true hp), Int.negOfNat_eq, Int.ofNat_eq_natCast]
        omega
      · rw [if_neg (by simpa using hp), Int.ofNat_eq_natCast]
        omega
    rw [dif_neg hshort]
    simp only [hsign]
    show Float.Model.pack (UnpackedFloat.ofScientific .binary64 c p) = _
    rw [unpacked_ofScientific_of_reads hm hpos hc hlow hhigh h]

/-- What is read as a double is not less than half of the least one, nor beyond the greatest. -/
theorem size_of_reads (hpos : 0 < m) {x : ℚ} (he : e ≤ 971) (h : Reads m e x) :
    1 / 2 * (2 : ℚ) ^ (-1074 : Int) ≤ x ∧ x < (2 : ℚ) ^ 53 * (2 : ℚ) ^ (971 : Int) := by
  have hunit : (0 : ℚ) < (2 : ℚ) ^ e := by positivity
  have hone : (1 : ℚ) ≤ m := by exact_mod_cast hpos
  have hreach := reach_le m e
  constructor
  · have hhalf : (1 / 2 : ℚ) ≤ m - reach m e := by linarith
    have hpow : (2 : ℚ) ^ (-1074 : Int) ≤ (2 : ℚ) ^ e :=
      zpow_le_zpow_right₀ one_le_two hm.2.1
    exact (mul_le_mul hhalf hpow (by positivity) (by linarith)).trans h.lower
  · have hlt : (m : ℚ) + 1 / 2 < 2 ^ 53 := by
      have hle : (m : ℚ) + 1 ≤ 2 ^ 53 := by exact_mod_cast hm.1
      linarith
    calc x ≤ (m + 1 / 2) * (2 : ℚ) ^ e := h.upper
      _ < 2 ^ 53 * (2 : ℚ) ^ e := by gcongr
      _ ≤ 2 ^ 53 * (2 : ℚ) ^ (971 : Int) := by
          gcongr
          norm_num

theorem toModel_realOfDecimal_of_reads {c : Nat} {p : Int} (he : e ≤ 971)
    (h : Reads m e (c * (10 : ℚ) ^ p)) :
    (realOfDecimal c p).toModel = Float.Model.pack (.finite .positive m e hpos) := by
  obtain ⟨hx, hx'⟩ := size_of_reads hm hpos he h
  have hc : c ≠ 0 := by
    rintro rfl
    rw [Nat.cast_zero, zero_mul] at hx
    exact absurd hx (by norm_num)
  obtain ⟨a, ha, hlow, hhigh⟩ := Decimal.exists_digitCount_bounds hc
  obtain ⟨htop, htop'⟩ := top_of_size hlow hhigh hx hx'
  have hdigits : a ≤ c.log2 := by
    rw [Nat.le_log2 hc]
    have hle : 10 ^ a ≤ c := by
      rw [zpow_natCast] at hlow
      exact_mod_cast hlow
    exact (Nat.pow_le_pow_left (by decide) a).trans hle
  unfold realOfDecimal
  simp only [ha]
  rw [if_neg (by simp only [Bool.or_eq_true, decide_eq_true_eq]; push_cast; omega),
    if_neg (by push_cast; omega)]
  exact toModel_ofScientific_of_reads hm hpos hc (by omega) (by omega) h

end

/-! ## Doubles -/

theorem exponent_le_of_unpack {bits : BitVec Format.binary64.numBits} {s : Sign} {m : Nat}
    {e : Int} {h : 0 < m} (hunpack : UnpackedFloat.unpack .binary64 bits = .finite s m e h) :
    e ≤ 971 := by
  have hbias : (Format.binary64.exponentBias : Int) = 1023 := by decide
  have hbits : (Format.binary64.mantissaBitsWithoutImplicit : Int) = 52 := by decide
  have hlt : (unpackExponent bits).toNat < 2 ^ 11 := (unpackExponent bits).isLt
  unfold UnpackedFloat.unpack at hunpack
  dsimp only at hunpack
  rw [hbias, hbits] at hunpack
  split_ifs at hunpack with hfull hinf hzero hzero'
  · cases hunpack
    have hexponent : (unpackExponent bits).toNat = 0 := by rw [hzero]; rfl
    omega
  · cases hunpack
    have hexponent : (unpackExponent bits).toNat ≠ 2047 := fun heq =>
      hfull (BitVec.eq_of_toNat_eq (heq.trans (by decide)))
    omega

theorem eq_of_toModel_eq {x y : Float} (h : x.toModel = y.toModel) : x = y :=
  congrArg Float.ofModel h

/-- A finite double that is not zero is read by its sign, its mantissa and its exponent. -/
theorem exists_unpack_of_reading {x : Float} {negative : Bool} {m : Nat} {e : Int}
    (h : reading x = .finite negative m e) (hm : m ≠ 0) : ∃ hpos, x.toModel.unpack =
      .finite (if negative then .negative else .positive) m e hpos := by
  unfold reading at h
  cases hx : x.toModel.unpack with
  | notANumber => simp [hx] at h
  | infinity s => simp [hx] at h
  | zero s =>
    rw [hx] at h
    cases h
    exact absurd rfl hm
  | finite s m' e' hpos =>
    rw [hx] at h
    cases s <;> cases h <;> exact ⟨hpos, rfl⟩

/-- **A decimal with a sign is read as the double in whose interval it lies.** -/
theorem realOfDecimal_of_reads {x : Float} {negative : Bool} {m : Nat} {e : Int}
    (hx : reading x = .finite negative m e) (hm : m ≠ 0) {c : Nat} {p : Int}
    (h : Reads m e (c * (10 : ℚ) ^ p)) :
    (if negative then -realOfDecimal c p else realOfDecimal c p) = x := by
  obtain ⟨hpos, hunpack⟩ := exists_unpack_of_reading hx hm
  have hcanonical : IsCanonical m e := isCanonical_of_unpack hunpack
  have he : e ≤ 971 := exponent_le_of_unpack hunpack
  have hread := toModel_realOfDecimal_of_reads hcanonical hpos he h
  have hmodel := pack_unpack x
  rw [hunpack] at hmodel
  cases negative with
  | false => exact eq_of_toModel_eq (hread.trans hmodel)
  | true =>
    refine eq_of_toModel_eq ?_
    show Float.Model.pack (realOfDecimal c p).toModel.unpack.neg = x.toModel
    rw [hread, unpack_pack _ hcanonical hpos he]
    exact hmodel

end LinearProgram.Double
