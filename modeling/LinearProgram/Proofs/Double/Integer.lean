import Mathlib
import LinearProgram.Proofs.Double.Rounding
/-!
# Integers as doubles

A number that is given as an integer reaches a solver as the nearest double.  The value of this
double is the integer rounded to 53 binary digits (`exactValue?_of_real?`), so rounding may
change the value of a number, but not its order among others, nor whether it is 0 or 1, and
these are the only two integers that anything is compared with (`isZero_of_real?`,
`equals_of_real?`).

## How the proof goes

A natural number becomes a double in one of two ways: a small one is packed as it is and
multiplied by 1, a great one is read as a decimal.  Each step is a rounding that makes what is
`Sized` as the number is, or keeps it so (`sized_ofNat`).
-/
namespace LinearProgram.Double

open Float.Model Float.Model.UnpackedFloat
open LinearProgram.Decimal (reading exactValue?)
open LinearProgram.Rounding

/-! ## Integers -/

/-- Multiplying by 1 keeps the size. -/
theorem sized_mul_one {s : Sign} {q : ℚ} {u : UnpackedFloat} (h : Sized s q u)
    (hone : 0 < 2 ^ 52) :
    Sized (s * .positive) q
      (UnpackedFloat.mul .binary64 u (.finite .positive (2 ^ 52) (-52) hone)) := by
  rcases h with rfl | ⟨m, e, hpos, rfl, hm, he, hvalue⟩
  · exact .inl rfl
  · have hlog : (m * 2 ^ 52).log2 = m.log2 + 52 := log2_mul_two_pow hpos.ne' 52
    have hfits : (m : Int).natAbs < 2 ^ (52 + 1) :=
      ((Nat.log2_eq_iff hpos.ne').mp hm).2
    have hself : toPlaces 2 52 (m * (2 : ℚ) ^ e) = m * (2 : ℚ) ^ e := by
      exact_mod_cast toPlaces_eq_self 52 one_lt_two hfits e
    have hscale : ((m * 2 ^ 52 : Nat) : ℚ) * (2 : ℚ) ^ (e + -52) = m * (2 : ℚ) ^ e := by
      rw [zpow_add₀ two_ne_zero]
      push_cast
      ring
    have hround := sized_roundWithAccuracy (s * .positive) (m := m * 2 ^ 52) (e := e + -52)
      (by omega) (by omega)
    rw [hscale, hself, hvalue] at hround
    exact hround

/-- An integer is shifted to the left until it has all the bits of a mantissa. -/
theorem sized_round (s : Sign) {n : Nat} (hn : n ≠ 0) :
    Sized s (toPlaces 2 52 n) (UnpackedFloat.round .binary64 s n 0) := by
  have htarget : Format.binary64.targetExponent (totalExponent n 0) = n.log2 - 52 := by
    have hmin : Format.binary64.minExponent = -1074 := by decide
    have hbits : Format.binary64.mantissaBits = 53 := by decide
    rw [Format.targetExponent, totalExponent, hmin, hbits]
    omega
  have hamount : (0 - ((n.log2 : Int) - 52)).toNat = 52 - n.log2 := by omega
  have hbits : (n <<< (52 - n.log2)).log2 = n.log2 + (52 - n.log2) := by
    rw [Nat.shiftLeft_eq, log2_mul_two_pow hn]
  have hvalue : ((n <<< (52 - n.log2) : Nat) : ℚ) * (2 : ℚ) ^ (0 - ((52 - n.log2 : Nat) : Int))
      = n := by
    rw [zero_sub, zpow_neg, zpow_natCast, Nat.shiftLeft_eq]
    push_cast
    exact mul_inv_cancel_right₀ (by positivity) _
  unfold UnpackedFloat.round
  simp only [htarget, decreaseExponent, hamount]
  have hround := sized_roundWithAccuracy s (m := n <<< (52 - n.log2))
    (e := 0 - ((52 - n.log2 : Nat) : Int)) (by omega) (by omega)
  rwa [hvalue] at hround

/-- A small integer fits into a machine word, which is rounded. -/
theorem toModel_toFloat {n : Nat} (hne : n ≠ 0) (hsmall : n < 2 ^ 53) :
    n.toUInt64.toFloat.toModel =
      Float.Model.pack (UnpackedFloat.round .binary64 .positive n 0) := by
  have htoNat : n.toUInt64.toNat = n := by
    rw [Nat.toUInt64, UInt64.toNat_ofNat', Nat.mod_eq_of_lt (by omega)]
  have hcompare : compare (n : Int) 0 = .gt := compare_gt_iff_gt.mpr (by omega)
  show Float.Model.pack
    (UnpackedFloat.normalize .binary64 (n.toUInt64.toNat : Int) 0 .positive) = _
  rw [htoNat, UnpackedFloat.normalize, hcompare]
  rfl

/-- A small integer is packed as it is, and multiplied by 1. -/
theorem sized_ofNat_of_lt {n : Nat} (hne : n ≠ 0) (hsmall : n < 2 ^ 53) :
    Sized .positive (toPlaces 2 52 n) (Float.ofNat n).toModel.unpack := by
  have hfloat : Float.ofNat n = n.toUInt64.toFloat * Float.ofBits 0x3FF0000000000000 := by
    show Float.ofScientific n false 0 = _
    rw [Float.ofScientific, dif_pos ⟨hsmall, by decide⟩]
    rfl
  have hone : (Float.ofBits 0x3FF0000000000000).toModel.unpack
      = .finite .positive (2 ^ 52) (-52) (by decide) := rfl
  have hproduct := sized_mul_one (sized_unpack_pack (sized_round .positive hne)) (by decide)
  rw [← toModel_toFloat hne hsmall, ← hone] at hproduct
  rw [hfloat]
  exact sized_unpack_pack hproduct

/-- A great integer has all the bits of a mantissa, and more when it is read as a decimal. -/
theorem sized_ofScientific {n : Nat} (hlog : 53 ≤ n.log2) :
    Sized .positive (toPlaces 2 52 n) (UnpackedFloat.ofScientific .binary64 n 0) := by
  have hne : n ≠ 0 := by
    rintro rfl
    simp at hlog
  have hmantissa : n <<< Format.binary64.mantissaBits * 10 ^ (0 : Int).toNat = n * 2 ^ 53 := by
    rw [Int.toNat_zero, Nat.pow_zero, Nat.mul_one, Nat.shiftLeft_eq]
    rfl
  have hbits : (n * 2 ^ 53).log2 = n.log2 + 53 := log2_mul_two_pow hne 53
  have hexponent : -(Format.binary64.mantissaBits : Int) + 0 = -53 := by decide
  have hvalue : ((n * 2 ^ 53 : Nat) : ℚ) * (2 : ℚ) ^ (-53 : Int) = n := by
    push_cast
    rw [zpow_neg]
    exact mul_inv_cancel_right₀ (by positivity) _
  have hnonneg : (0 : Int) ≤ 2 ^ Format.binary64.exponentBits := by positivity
  have hround := sized_roundWithAccuracy (.positive * .positive) (m := n * 2 ^ 53) (e := -53)
    (by omega) (by omega)
  unfold UnpackedFloat.ofScientific
  rw [dif_neg hne, if_neg (by decide), if_neg (by omega), if_pos (by decide),
    UnpackedFloat.mul, hmantissa, hexponent]
  rwa [hvalue] at hround

/-- **The double of an integer is the integer rounded to 53 binary digits.** -/
theorem sized_ofNat {n : Nat} (hne : n ≠ 0) :
    Sized .positive (toPlaces 2 52 n) (Float.ofNat n).toModel.unpack := by
  obtain hsmall | hgreat := lt_or_ge n (2 ^ 53)
  · exact sized_ofNat_of_lt hne hsmall
  · have hfloat : Float.ofNat n = Float.ofModel (Float.Model.ofScientific n 0) := by
      show Float.ofScientific n false 0 = _
      rw [Float.ofScientific, dif_neg fun h => hgreat.not_gt h.1]
      rfl
    rw [hfloat]
    exact sized_unpack_pack (sized_ofScientific ((Nat.le_log2 hne).mpr hgreat))

theorem valueOf?_of_sized {s : Sign} {q : ℚ} {u : UnpackedFloat} (h : Sized s q u)
    (hfinite : ∀ t, u ≠ .infinity t) :
    valueOf? u = some (match s with | .positive => q | .negative => -q) := by
  rcases h with rfl | ⟨m, e, hpos, rfl, -, -, rfl⟩
  · exact absurd rfl (hfinite s)
  · cases s <;> rfl

theorem sized_neg {s : Sign} {q : ℚ} {x : Float} (h : Sized s q x.toModel.unpack) :
    Sized (-s) q (Float.neg x).toModel.unpack := by
  have hneg : Sized (-s) q x.toModel.unpack.neg := by
    rcases h with h | ⟨m, e, hpos, h, hrest⟩
    · rw [h]
      exact .inl rfl
    · rw [h]
      exact .inr ⟨m, e, hpos, rfl, hrest⟩
  exact sized_unpack_pack hneg

theorem ofInt_of_ofInt? {n : Int} {x : Float} (h : ofInt? n = some x) : x = Float.ofInt n := by
  unfold ofInt? at h
  dsimp only at h
  split at h
  · exact (Option.some.inj h).symm
  · cases h

theorem exactValue?_of_ofInt? {n : Int} {x : Float} (h : ofInt? n = some x) :
    exactValue? x = some (toPlaces 2 52 n) := by
  have hfinite : ∀ t, x.toModel.unpack ≠ .infinity t := by
    intro t ht
    obtain ⟨negative, m, e, hreading⟩ := (isFinite_iff x).mp (isFinite_of_ofInt? h)
    unfold reading at hreading
    rw [ht] at hreading
    cases hreading
  obtain rfl := ofInt_of_ofInt? h
  rw [exactValue?_eq]
  cases n with
  | ofNat k =>
    obtain rfl | hk := eq_or_ne k 0
    · have hzero : toPlaces 2 52 ((Int.ofNat 0 : Int) : ℚ) = 0 :=
        (toPlaces_eq_zero_iff 52 one_lt_two).mpr rfl
      have hunpack : (Float.ofInt (Int.ofNat 0)).toModel.unpack = .zero .positive := rfl
      rw [hzero, hunpack]
      rfl
    · exact valueOf?_of_sized (sized_ofNat hk) hfinite
  | negSucc k =>
    have hneg : ((Int.negSucc k : Int) : ℚ) = -((k + 1 : Nat) : ℚ) := Int.cast_negSucc k
    rw [hneg, toPlaces_neg]
    exact valueOf?_of_sized (sized_neg (sized_ofNat k.succ_ne_zero)) hfinite

/-! ## Numbers and their doubles -/

section

variable {a : Number Float} {x : Float} {q : ℚ}

/-- **The double of a number has the value of the number, rounded to 53 binary digits.** -/
theorem exactValue?_of_real? (h : a.real? = some x) (hq : a.exactValue? = some q) :
    exactValue? x = some (toPlaces 2 52 q) := by
  cases a with
  | int n =>
    obtain rfl := Option.some.inj hq
    exact exactValue?_of_ofInt? h
  | bool b =>
    obtain rfl := Option.some.inj hq
    rw [exactValue?_of_ofInt? h]
    cases b <;> simp
  | real y =>
    obtain rfl := Option.some.inj h
    rw [toPlaces_of_exactValue? hq]
    exact hq

/-- Rounding to 53 bits tells every small integer from all others. -/
theorem toPlaces_intCast_eq_iff {n k : Int} (hk : k.natAbs + 1 < 2 ^ 53) :
    toPlaces 2 52 n = k ↔ n = k := by
  have hself : ∀ {j : Int}, j.natAbs < 2 ^ 53 → toPlaces 2 52 j = j := fun hj => by
    simpa using toPlaces_eq_self 52 one_lt_two hj 0
  have hbelow := hself (j := k - 1) (by omega)
  have habove := hself (j := k + 1) (by omega)
  constructor
  · intro heq
    obtain hlt | rfl | hlt := lt_trichotomy n k
    · have hle : (n : ℚ) ≤ (k - 1 : Int) := by exact_mod_cast Int.le_sub_one_of_lt hlt
      have hround := toPlaces_mono 52 one_lt_two hle
      rw [heq, hbelow] at hround
      push_cast at hround
      linarith
    · rfl
    · have hle : ((k + 1 : Int) : ℚ) ≤ n := by exact_mod_cast hlt
      have hround := toPlaces_mono 52 one_lt_two hle
      rw [heq, habove] at hround
      push_cast at hround
      linarith
  · rintro rfl
    exact hself (by omega)

/-- **A number is zero exactly if its double is.** -/
theorem isZero_of_real? (h : a.real? = some x) : (Number.real x).isZero = a.isZero := by
  cases hn : a.integer? with
  | none =>
    obtain ⟨y, rfl⟩ := Number.integer?_eq_none_iff.mp hn
    rw [Option.some.inj h]
  | some n =>
    have hq := Number.exactValue?_of_integer? hn
    have hx : (Number.real x).exactValue? = _ := exactValue?_of_real? h hq
    rw [Bool.eq_iff_iff, Number.isZero_iff hx, Number.isZero_iff hq,
      toPlaces_eq_zero_iff 52 one_lt_two]

/-- **A number is 0, or 1, exactly if its double is.** -/
theorem equals_of_real? (h : a.real? = some x) {k : Int} (hk : k = 0 ∨ k = 1) :
    (Number.real x).equals (.int k) = a.equals (.int k) := by
  cases hn : a.integer? with
  | none =>
    obtain ⟨y, rfl⟩ := Number.integer?_eq_none_iff.mp hn
    rw [Option.some.inj h]
  | some n =>
    have hq := Number.exactValue?_of_integer? hn
    have hx : (Number.real x).exactValue? = _ := exactValue?_of_real? h hq
    have hk' : (Number.int k : Number Float).exactValue? = some (k : ℚ) := rfl
    rw [Bool.eq_iff_iff, Number.equals_iff hx hk', Number.equals_iff hq hk',
      toPlaces_intCast_eq_iff (by omega), Int.cast_inj]

end

end LinearProgram.Double
