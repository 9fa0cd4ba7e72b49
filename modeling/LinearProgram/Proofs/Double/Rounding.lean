import Mathlib
import LinearProgram.Proofs.Double.Value
/-!
# How doubles are rounded

Doubles are computed by a model in which a finite value is a mantissa times a power of two.
Rounding shifts the mantissa to the right, bit by bit, and keeps two bits of what falls out;
`Represents` says what the three stand for, so the rounded mantissa is the nearest integer
(`roundedMantissa_eq`).  `Sized` holds of what has a full mantissa and a given size, an infinity
included.  Rounding makes it (`sized_roundWithAccuracy`) and packing into bits keeps it
(`sized_unpack_pack`).
-/
namespace LinearProgram.Double

open Float.Model Float.Model.UnpackedFloat
open LinearProgram.Decimal (roundDiv)
open LinearProgram.Rounding

/-! ## Bits -/

theorem ne_zero_of_log2 {m k : Nat} (hk : 0 < k) (h : k ≤ m.log2) : m ≠ 0 := by
  rintro rfl
  rw [Nat.log2_zero] at h
  omega

theorem log2_mul_two_pow {m : Nat} (hm : m ≠ 0) : ∀ k : Nat, (m * 2 ^ k).log2 = m.log2 + k
  | 0 => by simp
  | k + 1 => by
    have hne : m * 2 ^ k ≠ 0 := Nat.mul_ne_zero hm (Nat.two_pow_pos k).ne'
    rw [Nat.pow_succ, ← Nat.mul_assoc, Nat.mul_comm _ 2, Nat.log2_two_mul hne,
      log2_mul_two_pow hm k]
    omega

theorem intLog_eq {m : Nat} (hm : m ≠ 0) (e : Int) :
    Int.log 2 ((m : ℚ) * (2 : ℚ) ^ e) = m.log2 + e := by
  obtain ⟨hlow, hhigh⟩ := (Nat.log2_eq_iff hm).mp rfl
  have hpos : (0 : ℚ) < m := by exact_mod_cast Nat.pos_of_ne_zero hm
  refine log_eq one_lt_two (by positivity) ?_ ?_
  · rw [Nat.cast_ofNat, zpow_add₀ two_ne_zero, zpow_natCast]
    gcongr
    exact_mod_cast hlow
  · rw [Nat.cast_ofNat, add_right_comm, zpow_add₀ two_ne_zero]
    gcongr
    exact_mod_cast hhigh

/-! ## Shifting to the right -/

/-- The mantissa is the integral part of `num / den`, and the two bits tell how the rest compares
with a half and whether it is a whole number of halves. -/
structure Represents (em : ExtendedMantissa) (num den : Nat) : Prop where
  mantissa : em.mantissa = num / den
  roundBit : em.roundBit = decide (den ≤ 2 * (num % den))
  stickyBit : em.stickyBit = decide (num % den ≠ 0 ∧ 2 * (num % den) ≠ den)

theorem represents_exact (m : Nat) :
    Represents (ExtendedMantissa.ofMantissaAndAccuracy m .exact) m 1 where
  mantissa := (Nat.div_one m).symm
  roundBit := by simp [ExtendedMantissa.ofMantissaAndAccuracy, Nat.mod_one]
  stickyBit := by simp [ExtendedMantissa.ofMantissaAndAccuracy, Nat.mod_one]

/-- A shift by one bit doubles the denominator. -/
theorem represents_shiftRightOne {em : ExtendedMantissa} {num den : Nat} (hden : 0 < den)
    (h : Represents em num den) : Represents em.shiftRightOne num (den * 2) := by
  have hmod : num % (den * 2) = num % den + den * (num / den % 2) := Nat.mod_mul
  have hlt := Nat.mod_lt num hden
  obtain hbit | hbit := Nat.mod_two_eq_zero_or_one (num / den)
  · rw [hbit, Nat.mul_zero, Nat.add_zero] at hmod
    refine ⟨?_, ?_, ?_⟩
    · rw [← Nat.div_div_eq_div_mul, ← h.mantissa]
      rfl
    · simp [ExtendedMantissa.shiftRightOne, h.mantissa, hbit, hmod]
      omega
    · simp only [ExtendedMantissa.shiftRightOne, h.roundBit, h.stickyBit, hmod,
        ← Bool.decide_or, decide_eq_decide]
      omega
  · rw [hbit, Nat.mul_one] at hmod
    refine ⟨?_, ?_, ?_⟩
    · rw [← Nat.div_div_eq_div_mul, ← h.mantissa]
      rfl
    · simp [ExtendedMantissa.shiftRightOne, h.mantissa, hbit, hmod]
      omega
    · simp only [ExtendedMantissa.shiftRightOne, h.roundBit, h.stickyBit, hmod,
        ← Bool.decide_or, decide_eq_decide]
      omega

theorem Represents.shiftRight {em : ExtendedMantissa} {num den : Nat} (hden : 0 < den)
    (h : Represents em num den) : ∀ k : Nat, Represents (em >>> k) num (den * 2 ^ k)
  | 0 => by
    rw [Nat.pow_zero, Nat.mul_one]
    exact h
  | k + 1 => by
    rw [Nat.pow_succ, ← Nat.mul_assoc]
    exact represents_shiftRightOne (Nat.mul_pos hden (Nat.two_pow_pos k)) (h.shiftRight hden k)

theorem represents_shiftRight (m k : Nat) :
    Represents (ExtendedMantissa.ofMantissaAndAccuracy m .exact >>> k) m (2 ^ k) := by
  have h := (represents_exact m).shiftRight Nat.one_pos k
  rwa [Nat.one_mul] at h

/-- **Two bits are enough to round to the nearest integer.** -/
theorem roundedMantissa_eq {em : ExtendedMantissa} {num den : Nat} (h : Represents em num den) :
    em.roundedMantissa = roundDiv num den := by
  obtain ⟨m, roundBit, stickyBit⟩ := em
  obtain ⟨rfl, hround, hsticky⟩ := h
  unfold roundDiv
  dsimp only at hround hsticky ⊢
  cases roundBit with
  | false =>
    have hlow : 2 * (num % den) < den := by simpa using hround
    rw [if_pos hlow]
    cases stickyBit <;> rfl
  | true =>
    have hhigh : den ≤ 2 * (num % den) := by simpa using hround
    rw [if_neg (by omega)]
    cases stickyBit with
    | false =>
      have hhalf : ¬ (num % den ≠ 0 ∧ 2 * (num % den) ≠ den) := by simpa using hsticky
      have hparity : ExtendedMantissa.roundedMantissa ⟨num / den, true, false⟩
          = num / den + num / den % 2 := rfl
      rw [if_neg (by omega), hparity]
      split_ifs <;> omega
    | true =>
      have habove : num % den ≠ 0 ∧ 2 * (num % den) ≠ den := by simpa using hsticky
      rw [if_pos (by omega)]
      rfl

/-! ## Rounding -/

/-- A value of the given sign and size with a mantissa of all its bits, or an infinity of that
sign. -/
def Sized (s : Sign) (q : ℚ) (u : UnpackedFloat) : Prop :=
  u = .infinity s ∨
    ∃ m e h, u = .finite s m e h ∧ m.log2 = 52 ∧ -1074 ≤ e ∧ (m : ℚ) * (2 : ℚ) ^ e = q

/-- A number of at least 53 bits is cut down to 53 bits. -/
theorem shiftToTargetExponent_eq {m : Nat} {e : Int} (hm : 52 ≤ m.log2)
    (he : -1022 ≤ m.log2 + e) :
    shiftToTargetExponent .binary64 m e .exact =
      (ExtendedMantissa.ofMantissaAndAccuracy m .exact >>> (m.log2 - 52),
        e + (m.log2 - 52 : Nat)) := by
  have htarget : Format.binary64.targetExponent (totalExponent m e) = e + (m.log2 - 52 : Nat) := by
    have hmin : Format.binary64.minExponent = -1074 := by decide
    have hbits : Format.binary64.mantissaBits = 53 := by decide
    rw [Format.targetExponent, totalExponent, hmin, hbits]
    omega
  rw [shiftToTargetExponent, shiftToExponent, htarget, add_sub_cancel_left, Int.toNat_natCast]

/-- What is cut off is rounded to 53 binary digits. -/
theorem roundDiv_mul_eq_toPlaces {m : Nat} {e : Int} (hm : 52 ≤ m.log2) :
    (roundDiv m (2 ^ (m.log2 - 52)) : ℚ) * (2 : ℚ) ^ (e + (m.log2 - 52 : Nat)) =
      toPlaces 2 52 (m * (2 : ℚ) ^ e) := by
  have hne := ne_zero_of_log2 (by decide) hm
  have hscaled : (m : ℚ) * (2 : ℚ) ^ e * (2 : ℚ) ^ ((52 : Nat) - (m.log2 + e)) =
      (m : ℚ) / (2 ^ (m.log2 - 52) : Nat) := by
    rw [mul_assoc, ← zpow_add₀ two_ne_zero, div_eq_mul_inv, Nat.cast_pow, ← zpow_natCast,
      ← zpow_neg]
    congr 2
    omega
  rw [toPlaces_of_nonneg 52 (by positivity), magnitude, intLog_eq hne, Nat.cast_ofNat, hscaled,
    ← roundDiv_eq_nearest _ (Nat.two_pow_pos _).ne']
  congr 2
  omega

/-- Rounding to 53 bits may carry into one more bit, and then all others are zero. -/
theorem roundDiv_carry {m : Nat} (hm : 52 ≤ m.log2) :
    (roundDiv m (2 ^ (m.log2 - 52))).log2 = 52 ∨ roundDiv m (2 ^ (m.log2 - 52)) = 2 ^ 53 := by
  obtain ⟨hlow, hhigh⟩ := (Nat.log2_eq_iff (ne_zero_of_log2 (by decide) hm)).mp rfl
  generalize m.log2 = l at *
  obtain ⟨k, rfl⟩ := Nat.exists_eq_add_of_le hm
  rw [Nat.add_sub_cancel_left]
  have hexact : ∀ c : Nat, roundDiv (c * 2 ^ k) (2 ^ k) = c := by
    intro c
    have hone := roundDiv_mul_right (Nat.two_pow_pos k) c 1
    rwa [one_mul, roundDiv_one] at hone
  have hleast : 2 ^ 52 ≤ roundDiv m (2 ^ k) := by
    rw [Nat.pow_add] at hlow
    exact (hexact _).ge.trans (roundDiv_mono hlow _)
  have hgreatest : roundDiv m (2 ^ k) ≤ 2 ^ 53 := by
    rw [Nat.add_right_comm, Nat.pow_add] at hhigh
    exact (roundDiv_mono hhigh.le _).trans (hexact _).le
  obtain hlt | heq := hgreatest.lt_or_eq
  · exact .inl ((Nat.log2_eq_iff (by omega)).mpr ⟨hleast, hlt⟩)
  · exact .inr heq

/-- A carry is shifted out, which drops a zero. -/
theorem shiftToTargetExponent_carry {r : Nat} {d : Int} (hr : r.log2 = 52 ∨ r = 2 ^ 53)
    (hd : -1074 ≤ d) :
    let shifted := shiftToTargetExponent .binary64 r d .exact
    shifted.1.mantissa.log2 = 52 ∧ -1074 ≤ shifted.2 ∧
      (shifted.1.mantissa : ℚ) * (2 : ℚ) ^ shifted.2 = r * (2 : ℚ) ^ d := by
  obtain hr | rfl := hr
  · have hmantissa := (represents_shiftRight r 0).mantissa
    rw [Nat.pow_zero, Nat.div_one] at hmantissa
    rw [shiftToTargetExponent_eq hr.ge (by omega), hr, Nat.sub_self, Nat.cast_zero, add_zero]
    dsimp only
    rw [hmantissa]
    exact ⟨hr, hd, rfl⟩
  · have hlog : (2 ^ 53).log2 = 53 := by decide
    have hmantissa := (represents_shiftRight (2 ^ 53) 1).mantissa
    rw [shiftToTargetExponent_eq (by omega) (by omega), hlog]
    dsimp only
    rw [hmantissa]
    refine ⟨by decide, by omega, ?_⟩
    rw [zpow_add₀ two_ne_zero]
    push_cast
    ring

/-- **Rounding makes the nearest number of 53 binary digits.** -/
theorem sized_roundWithAccuracy (s : Sign) {m : Nat} {e : Int} (hm : 52 ≤ m.log2)
    (he : -1022 ≤ m.log2 + e) :
    Sized s (toPlaces 2 52 (m * (2 : ℚ) ^ e)) (roundWithAccuracy .binary64 s m e .exact) := by
  obtain ⟨hlog, hexponent, hvalue⟩ := shiftToTargetExponent_carry (roundDiv_carry hm)
    (d := e + (m.log2 - 52 : Nat)) (by omega)
  rw [roundDiv_mul_eq_toPlaces hm] at hvalue
  unfold roundWithAccuracy
  simp only [shiftToTargetExponent_eq hm he, roundedMantissa_eq (represents_shiftRight m _)]
  rw [dif_neg (ne_zero_of_log2 (by decide) hlog.ge)]
  exact .inr ⟨_, _, _, rfl, hlog, hexponent, hvalue⟩

/-! ## Packing -/

theorem unpackSign_packComponents (spec : Format) (s : Sign) (exponent : BitVec spec.exponentBits)
    (mantissa : BitVec spec.mantissaBitsWithoutImplicit) :
    Sign.ofBitVec (unpackSign (packComponents spec s exponent mantissa)) = s := by
  have hbits : unpackSign (packComponents spec s exponent mantissa) = s.toBitVec := by
    ext i hi
    obtain rfl : i = 0 := by omega
    simp [unpackSign, packComponents, BitVec.getLsbD_append, BitVec.getElem_append]
  rw [hbits]
  cases s <;> rfl

theorem unpack_packedInfinity (s : Sign) :
    UnpackedFloat.unpack .binary64 (packedInfinity .binary64 s) = .infinity s := by
  cases s <;> rfl

/-- A full mantissa gets back the bit that packing leaves out. -/
theorem toNat_implicit_append {m : Nat} (hm : m.log2 = 52) :
    (1#1 ++ BitVec.ofNat 52 m).toNat = m := by
  obtain ⟨hlow, hhigh⟩ := (Nat.log2_eq_iff (ne_zero_of_log2 (by decide) hm.ge)).mp hm
  rw [toNat_implicit, BitVec.toNat_ofNat]
  omega

/-- What is packed under an exponent that is not one of the two special ones is read back. -/
theorem unpack_packComponents (s : Sign) {m b : Nat} (hm : m.log2 = 52) (hb : 0 < b)
    (hb' : b + 1 < 2 ^ 11) :
    ∃ h, UnpackedFloat.unpack .binary64
        (packComponents .binary64 s (BitVec.ofNat 11 b) (BitVec.ofNat 52 m))
      = .finite s m (b - 1075) h := by
  have hbias : Format.binary64.exponentBias = 1023 := by decide
  have htoNat : (BitVec.ofNat 11 b).toNat = b := by
    rw [BitVec.toNat_ofNat, Nat.mod_eq_of_lt (by omega)]
  have hfull : BitVec.ofNat 11 b ≠ -1#11 := by
    intro heq
    have hones : (-1#11).toNat = 2047 := by decide
    rw [heq, hones] at htoNat
    omega
  have hzero : BitVec.ofNat 11 b ≠ 0#11 := by
    intro heq
    have hzeros : (0#11).toNat = 0 := by decide
    rw [heq, hzeros] at htoNat
    omega
  have hmantissa := toNat_implicit_append hm
  refine ⟨Nat.pos_of_ne_zero (ne_zero_of_log2 (by decide) hm.ge), ?_⟩
  unfold UnpackedFloat.unpack
  simp only [unpackExponent_packComponents, unpackMantissa_packComponents,
    unpackSign_packComponents, hbias, htoNat]
  rw [if_neg hfull, if_neg hzero]
  congr 1

/-- **Packing into bits keeps the size**, unless it becomes an infinity. -/
theorem sized_unpack_pack {s : Sign} {q : ℚ} {u : UnpackedFloat} (h : Sized s q u) :
    Sized s q (Float.Model.pack u).unpack := by
  have hunpack : (Float.Model.pack u).unpack
      = UnpackedFloat.unpack .binary64 (UnpackedFloat.pack .binary64 u) := rfl
  have hbias : Format.binary64.exponentBias = 1023 := by decide
  rw [hunpack]
  rcases h with rfl | ⟨m, e, hpos, rfl, hm, he, hvalue⟩
  · exact .inl (unpack_packedInfinity s)
  · by_cases hover : 2 ^ 11 ≤ (e + 1023 + 52).toNat + 1
    · have hpack : UnpackedFloat.pack .binary64 (.finite s m e hpos) = packedInfinity .binary64 s :=
        if_pos hover
      rw [hpack]
      exact .inl (unpack_packedInfinity s)
    · have hpack : UnpackedFloat.pack .binary64 (.finite s m e hpos)
          = packComponents .binary64 s (BitVec.ofNat 11 (e + 1023 + 52).toNat)
              (BitVec.ofNat 52 m) :=
        (if_neg hover).trans (if_pos (by rw [hm]; rfl))
      obtain ⟨hpos', hread⟩ := unpack_packComponents s hm
        (b := (e + 1023 + 52).toNat) (by omega) (by omega)
      have hexponent : ((e + 1023 + 52).toNat : Int) - 1075 = e := by omega
      rw [hpack, hread]
      exact .inr ⟨m, _, hpos', rfl, hm, by omega, by rw [hexponent, hvalue]⟩

end LinearProgram.Double
