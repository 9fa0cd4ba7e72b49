import Mathlib
import LinearProgram.Proofs.Decimal.Significant
/-!
# Rounding to significant digits

A rational is rounded to `places` digits after its leading one, in base ten when it is written
and in base two when it becomes a double.  `toPlaces` is this rounding, and everything that is
said about either follows from four laws of it: it is monotone (`toPlaces_mono`), it keeps the
sign (`toPlaces_pos_iff`, `toPlaces_eq_zero_iff`), it moves a number by at most half a unit of
the last digit (`abs_toPlaces_sub_le`), and it leaves alone what has no more digits
(`toPlaces_eq_self`).

## How the proof goes

The scaled number is rounded to the nearest integer, which is monotone as long as the power of
the leading digit stays the same.  Where it grows, the power itself lies between the two results:
rounding never leaves the powers around a number (`pow_le_magnitude`, `magnitude_le_pow`).
-/
namespace LinearProgram.Rounding

open LinearProgram.Decimal (roundDiv)

/-! ## To the nearest integer -/

theorem roundDiv_mono {m n : Nat} (h : m ≤ n) (d : Nat) : roundDiv m d ≤ roundDiv n d := by
  have hquotient : m / d ≤ n / d := Nat.div_le_div_right h
  have hm := Nat.div_add_mod m d
  have hn := Nat.div_add_mod n d
  unfold roundDiv
  dsimp only
  by_cases heq : m / d = n / d
  · rw [heq] at hm ⊢
    split_ifs <;> omega
  · split_ifs <;> omega

/-- Fractions with the same value are rounded alike. -/
theorem roundDiv_mul_right {c : Nat} (hc : 0 < c) (a b : Nat) :
    roundDiv (a * c) (b * c) = roundDiv a b := by
  have hbelow : 2 * (a % b * c) < b * c ↔ 2 * (a % b) < b := by
    rw [← Nat.mul_assoc, Nat.mul_lt_mul_right hc]
  have habove : b * c < 2 * (a % b * c) ↔ b < 2 * (a % b) := by
    rw [← Nat.mul_assoc, Nat.mul_lt_mul_right hc]
  unfold roundDiv
  simp only [Nat.mul_div_mul_right a b hc, Nat.mul_mod_mul_right, hbelow, habove]

theorem roundDiv_one (n : Nat) : roundDiv n 1 = n := by
  simp [roundDiv, Nat.mod_one]

/-- Twice the error is at most the denominator. -/
theorem roundDiv_error {b : Nat} (hb : 0 < b) (a : Nat) :
    2 * a ≤ 2 * (roundDiv a b * b) + b ∧ 2 * (roundDiv a b * b) ≤ 2 * a + b := by
  have hdiv := Nat.div_add_mod a b
  have hmod := Nat.mod_lt a hb
  rw [Nat.mul_comm] at hdiv
  have hsucc : (a / b + 1) * b = a / b * b + b := Nat.succ_mul _ _
  unfold roundDiv
  dsimp only
  split_ifs <;> omega

/-- The integer nearest to a rational that is not negative; a half goes to the even neighbour. -/
def nearest (x : ℚ) : ℕ :=
  roundDiv x.num.toNat x.den

theorem roundDiv_eq_nearest (a : Nat) {b : Nat} (hb : b ≠ 0) :
    roundDiv a b = nearest ((a : ℚ) / b) := by
  have hden : 0 < ((a : ℚ) / b).den := Rat.den_pos _
  have hnum : 0 ≤ ((a : ℚ) / b).num := Rat.num_nonneg.mpr (by positivity)
  have hcross : ((a : ℚ) / b).num.toNat * b = a * ((a : ℚ) / b).den := by
    have hb' : (b : ℚ) ≠ 0 := by exact_mod_cast hb
    have hden' : (((a : ℚ) / b).den : ℚ) ≠ 0 := by exact_mod_cast hden.ne'
    have hvalue := Rat.num_div_den ((a : ℚ) / b)
    rw [div_eq_div_iff hden' hb'] at hvalue
    have hint : ((a : ℚ) / b).num * (b : ℤ) = a * ((a : ℚ) / b).den := by exact_mod_cast hvalue
    zify
    rw [Int.toNat_of_nonneg hnum, hint]
  calc roundDiv a b = roundDiv (a * ((a : ℚ) / b).den) (b * ((a : ℚ) / b).den) :=
        (roundDiv_mul_right hden a b).symm
    _ = roundDiv (((a : ℚ) / b).num.toNat * b) (((a : ℚ) / b).den * b) := by
        rw [hcross, Nat.mul_comm b]
    _ = nearest ((a : ℚ) / b) := roundDiv_mul_right (Nat.pos_of_ne_zero hb) _ _

theorem nearest_natCast (n : ℕ) : nearest n = n := by
  rw [nearest, Rat.num_natCast, Rat.den_natCast, Int.toNat_natCast, roundDiv_one]

theorem nearest_mono {x y : ℚ} (hx : 0 ≤ x) (h : x ≤ y) : nearest x ≤ nearest y := by
  have hnum : 0 ≤ x.num := Rat.num_nonneg.mpr hx
  have hcross : x.num.toNat * y.den ≤ y.num.toNat * x.den := by
    have hint : x.num * y.den ≤ y.num * x.den := (Rat.le_iff x y).mp h
    zify
    rwa [Int.toNat_of_nonneg hnum, Int.toNat_of_nonneg (Rat.num_nonneg.mpr (hx.trans h))]
  calc nearest x = roundDiv (x.num.toNat * y.den) (x.den * y.den) :=
        (roundDiv_mul_right y.den_pos _ _).symm
    _ ≤ roundDiv (y.num.toNat * x.den) (x.den * y.den) := roundDiv_mono hcross _
    _ = nearest y := by rw [Nat.mul_comm x.den, roundDiv_mul_right x.den_pos, nearest]

theorem abs_nearest_sub_le {x : ℚ} (hx : 0 ≤ x) : |(nearest x : ℚ) - x| ≤ 1 / 2 := by
  have hden : (0 : ℚ) < x.den := by exact_mod_cast x.den_pos
  have hvalue : x * x.den = x.num.toNat := by
    rw [Rat.mul_den_eq_num]
    exact_mod_cast (Int.toNat_of_nonneg (Rat.num_nonneg.mpr hx)).symm
  obtain ⟨hlow, hhigh⟩ := roundDiv_error x.den_pos x.num.toNat
  have hlow : 2 * (x * x.den) ≤ 2 * (nearest x * x.den) + x.den := by
    rw [hvalue]
    exact_mod_cast hlow
  have hhigh : 2 * (nearest x * x.den) ≤ 2 * (x * x.den) + x.den := by
    rw [hvalue]
    exact_mod_cast hhigh
  rw [abs_sub_le_iff]
  constructor <;> nlinarith

/-! ## The size of a number -/

/-- A rational that is not negative with `places` digits after the leading one. -/
def magnitude (base places : ℕ) (x : ℚ) : ℚ :=
  nearest (x * (base : ℚ) ^ ((places : ℤ) - Int.log base x)) *
    (base : ℚ) ^ (Int.log base x - places)

section

variable {base : ℕ} (hbase : 1 < base) (places : ℕ)

include hbase

theorem base_pos : (0 : ℚ) < base := by
  exact_mod_cast Nat.zero_lt_of_lt hbase

theorem log_eq {x : ℚ} {e : ℤ} (hx : 0 < x) (hlow : (base : ℚ) ^ e ≤ x)
    (hhigh : x < (base : ℚ) ^ (e + 1)) : Int.log base x = e := by
  have hle := (Int.zpow_le_iff_le_log hbase hx).mp hlow
  have hlt := (Int.lt_zpow_iff_log_lt hbase hx).mp hhigh
  omega

omit hbase in
theorem magnitude_zero : magnitude base places 0 = 0 := by
  have hzero : nearest 0 = 0 := nearest_natCast 0
  simp [magnitude, hzero]

/-- Rounding does not fall below the power of the leading digit. -/
theorem pow_le_magnitude {x : ℚ} (hx : 0 < x) :
    (base : ℚ) ^ Int.log base x ≤ magnitude base places x := by
  have hpos := base_pos hbase
  have hscaled : ((base ^ places : ℕ) : ℚ) ≤
      x * (base : ℚ) ^ ((places : ℤ) - Int.log base x) := by
    calc ((base ^ places : ℕ) : ℚ)
        = (base : ℚ) ^ Int.log base x * (base : ℚ) ^ ((places : ℤ) - Int.log base x) := by
          rw [← zpow_add₀ hpos.ne', add_sub_cancel, zpow_natCast, Nat.cast_pow]
      _ ≤ x * (base : ℚ) ^ ((places : ℤ) - Int.log base x) := by
          gcongr
          exact Int.zpow_log_le_self hbase hx
  have hnearest := nearest_mono (by positivity) hscaled
  rw [nearest_natCast] at hnearest
  calc (base : ℚ) ^ Int.log base x
      = ((base ^ places : ℕ) : ℚ) * (base : ℚ) ^ (Int.log base x - places) := by
        rw [Nat.cast_pow, ← zpow_natCast, ← zpow_add₀ hpos.ne', add_sub_cancel]
    _ ≤ magnitude base places x := by
        unfold magnitude
        gcongr

/-- Rounding does not rise above the next power. -/
theorem magnitude_le_pow {x : ℚ} (hx : 0 < x) :
    magnitude base places x ≤ (base : ℚ) ^ (Int.log base x + 1) := by
  have hpos := base_pos hbase
  have hscaled : x * (base : ℚ) ^ ((places : ℤ) - Int.log base x) ≤
      ((base ^ (places + 1) : ℕ) : ℚ) := by
    calc x * (base : ℚ) ^ ((places : ℤ) - Int.log base x)
        ≤ (base : ℚ) ^ (Int.log base x + 1) * (base : ℚ) ^ ((places : ℤ) - Int.log base x) := by
          gcongr
          exact (Int.lt_zpow_succ_log_self hbase x).le
      _ = ((base ^ (places + 1) : ℕ) : ℚ) := by
          rw [← zpow_add₀ hpos.ne', Nat.cast_pow, ← zpow_natCast]
          congr 1
          push_cast
          ring
  have hnearest := nearest_mono (by positivity) hscaled
  rw [nearest_natCast] at hnearest
  calc magnitude base places x
      ≤ ((base ^ (places + 1) : ℕ) : ℚ) * (base : ℚ) ^ (Int.log base x - places) := by
        unfold magnitude
        gcongr
    _ = (base : ℚ) ^ (Int.log base x + 1) := by
        rw [Nat.cast_pow, ← zpow_natCast, ← zpow_add₀ hpos.ne']
        congr 1
        push_cast
        ring

theorem magnitude_mono {x y : ℚ} (hx : 0 ≤ x) (h : x ≤ y) :
    magnitude base places x ≤ magnitude base places y := by
  have hpos := base_pos hbase
  obtain rfl | hx := hx.eq_or_lt
  · rw [magnitude_zero]
    unfold magnitude
    positivity
  · have hy := hx.trans_le h
    obtain heq | hlt := (Int.log_mono_right hx h (b := base)).eq_or_lt
    · -- The two are scaled alike.
      unfold magnitude
      rw [heq]
      gcongr
      refine nearest_mono (by positivity) ?_
      gcongr
    · calc magnitude base places x
          ≤ (base : ℚ) ^ (Int.log base x + 1) := magnitude_le_pow hbase places hx
        _ ≤ (base : ℚ) ^ Int.log base y := by
            gcongr
            · exact_mod_cast hbase.le
            · exact hlt
        _ ≤ magnitude base places y := pow_le_magnitude hbase places hy

/-- Rounding moves a number by at most half a unit of its last digit. -/
theorem abs_magnitude_sub_le {x : ℚ} (hx : 0 < x) :
    |magnitude base places x - x| ≤ (base : ℚ) ^ (-(places : ℤ)) / 2 * x := by
  have hpos := base_pos hbase
  set scaled := x * (base : ℚ) ^ ((places : ℤ) - Int.log base x) with hscaled
  have hx' : x = scaled * (base : ℚ) ^ (Int.log base x - places) := by
    rw [hscaled, mul_assoc, ← zpow_add₀ hpos.ne', sub_add_sub_cancel, sub_self, zpow_zero, mul_one]
  have herror := abs_nearest_sub_le (x := scaled) (by positivity)
  calc |magnitude base places x - x|
      = |((nearest scaled : ℚ) - scaled) * (base : ℚ) ^ (Int.log base x - places)| := by
        rw [sub_mul, ← hx', magnitude]
    _ = |(nearest scaled : ℚ) - scaled| * (base : ℚ) ^ (Int.log base x - places) := by
        rw [abs_mul, abs_of_pos (by positivity : (0 : ℚ) < (base : ℚ) ^ (Int.log base x - places))]
    _ ≤ 1 / 2 * (base : ℚ) ^ (Int.log base x - places) := by gcongr
    _ = (base : ℚ) ^ (-(places : ℤ)) / 2 * (base : ℚ) ^ Int.log base x := by
        rw [sub_eq_neg_add, zpow_add₀ hpos.ne']
        ring
    _ ≤ (base : ℚ) ^ (-(places : ℤ)) / 2 * x := by
        gcongr
        exact Int.zpow_log_le_self hbase hx

/-- A number of no more digits is left alone. -/
theorem magnitude_eq_self {m : ℕ} (hm : m < base ^ (places + 1)) (k : ℤ) :
    magnitude base places (m * (base : ℚ) ^ k) = m * (base : ℚ) ^ k := by
  have hpos := base_pos hbase
  obtain rfl | hm' := Nat.eq_zero_or_pos m
  · rw [Nat.cast_zero, zero_mul, magnitude_zero]
  · have hx : (0 : ℚ) < m * (base : ℚ) ^ k := by positivity
    have hlog : Int.log base (m * (base : ℚ) ^ k) < places + 1 + k := by
      rw [← Int.lt_zpow_iff_log_lt hbase hx, zpow_add₀ hpos.ne']
      gcongr
      exact_mod_cast hm
    obtain ⟨j, hj⟩ : ∃ j : ℕ, (places : ℤ) - Int.log base (m * (base : ℚ) ^ k) + k = j :=
      Int.eq_ofNat_of_zero_le (by omega)
    have hscaled : m * (base : ℚ) ^ k *
        (base : ℚ) ^ ((places : ℤ) - Int.log base (m * (base : ℚ) ^ k)) =
          ((m * base ^ j : ℕ) : ℚ) := by
      rw [mul_assoc, ← zpow_add₀ hpos.ne', add_comm k, hj, zpow_natCast]
      push_cast
      rfl
    have hback : ((m * base ^ j : ℕ) : ℚ) *
        (base : ℚ) ^ (Int.log base (m * (base : ℚ) ^ k) - places) = m * (base : ℚ) ^ k := by
      rw [← hscaled, mul_assoc, ← zpow_add₀ hpos.ne', sub_add_sub_cancel, sub_self, zpow_zero,
        mul_one]
    rw [magnitude, hscaled, nearest_natCast, hback]

end

/-! ## Numbers of either sign -/

/-- A rational with `places` digits after the leading one; the sign stays. -/
def toPlaces (base places : ℕ) (x : ℚ) : ℚ :=
  if x < 0 then -magnitude base places (-x) else magnitude base places x

section

variable {base : ℕ} (places : ℕ)

theorem toPlaces_of_nonneg {x : ℚ} (hx : 0 ≤ x) :
    toPlaces base places x = magnitude base places x :=
  if_neg (not_lt.mpr hx)

theorem toPlaces_neg (x : ℚ) : toPlaces base places (-x) = -toPlaces base places x := by
  unfold toPlaces
  obtain hx | rfl | hx := lt_trichotomy x 0
  · rw [if_neg (by linarith), if_pos hx, neg_neg]
  · simp [magnitude_zero]
  · rw [if_pos (by linarith), if_neg (by linarith), neg_neg]

variable (hbase : 1 < base)

include hbase

theorem toPlaces_pos {x : ℚ} (hx : 0 < x) : 0 < toPlaces base places x := by
  have hpos := base_pos hbase
  rw [toPlaces_of_nonneg places hx.le]
  exact lt_of_lt_of_le (by positivity) (pow_le_magnitude hbase places hx)

/-- **Rounding keeps the order.** -/
theorem toPlaces_mono {x y : ℚ} (h : x ≤ y) : toPlaces base places x ≤ toPlaces base places y := by
  obtain hx | hx := le_or_gt 0 x
  · rw [toPlaces_of_nonneg places hx, toPlaces_of_nonneg places (hx.trans h)]
    exact magnitude_mono hbase places hx h
  · have hneg : toPlaces base places (-x) = -toPlaces base places x := toPlaces_neg places x
    have hxpos := toPlaces_pos places hbase (neg_pos.mpr hx)
    obtain hy | hy := le_or_gt y 0
    · have hle := magnitude_mono hbase places (neg_nonneg.mpr hy) (neg_le_neg h)
      rw [← toPlaces_of_nonneg places (neg_nonneg.mpr hy), toPlaces_neg,
        ← toPlaces_of_nonneg places (neg_nonneg.mpr hx.le), toPlaces_neg] at hle
      exact neg_le_neg_iff.mp hle
    · have hypos := toPlaces_pos places hbase hy
      linarith

/-- **Rounding keeps the sign.** -/
theorem toPlaces_pos_iff {x : ℚ} : 0 < toPlaces base places x ↔ 0 < x := by
  refine ⟨fun h => ?_, toPlaces_pos places hbase⟩
  by_contra hx
  have hle := toPlaces_mono places hbase (not_lt.mp hx)
  rw [toPlaces_of_nonneg places le_rfl, magnitude_zero] at hle
  linarith

theorem toPlaces_neg_iff {x : ℚ} : toPlaces base places x < 0 ↔ x < 0 := by
  have h := toPlaces_pos_iff places hbase (x := -x)
  rwa [toPlaces_neg, neg_pos, neg_pos] at h

/-- **Only zero is rounded to zero.** -/
theorem toPlaces_eq_zero_iff {x : ℚ} : toPlaces base places x = 0 ↔ x = 0 := by
  have hpos := toPlaces_pos_iff places hbase (x := x)
  have hneg := toPlaces_neg_iff places hbase (x := x)
  constructor
  · intro h
    rw [h] at hpos hneg
    exact le_antisymm (not_lt.mp (hpos.not.mp (lt_irrefl _)))
      (not_lt.mp (hneg.not.mp (lt_irrefl _)))
  · rintro rfl
    rw [toPlaces_of_nonneg places le_rfl, magnitude_zero]

/-- **The error is at most half a unit of the last digit.** -/
theorem abs_toPlaces_sub_le (x : ℚ) :
    |toPlaces base places x - x| ≤ (base : ℚ) ^ (-(places : ℤ)) / 2 * |x| := by
  have hsize : ∀ {y : ℚ}, 0 < y →
      |toPlaces base places y - y| ≤ (base : ℚ) ^ (-(places : ℤ)) / 2 * |y| := by
    intro y hy
    rw [toPlaces_of_nonneg places hy.le, abs_of_pos hy]
    exact abs_magnitude_sub_le hbase places hy
  obtain hx | rfl | hx := lt_trichotomy x 0
  · have h := hsize (y := -x) (by linarith)
    rwa [toPlaces_neg, ← neg_add', abs_neg, abs_neg, ← sub_eq_add_neg] at h
  · rw [(toPlaces_eq_zero_iff places hbase).mpr rfl]
    simp
  · exact hsize hx

/-- **What has no more digits is left alone.** -/
theorem toPlaces_eq_self {m : ℤ} (hm : m.natAbs < base ^ (places + 1)) (k : ℤ) :
    toPlaces base places (m * (base : ℚ) ^ k) = m * (base : ℚ) ^ k := by
  have hpos := base_pos hbase
  have hsize : toPlaces base places (m.natAbs * (base : ℚ) ^ k) = m.natAbs * (base : ℚ) ^ k := by
    rw [toPlaces_of_nonneg places (by positivity), magnitude_eq_self hbase places hm]
  have hcast : ((m.natAbs : ℤ) : ℚ) = (m.natAbs : ℚ) := Int.cast_natCast _
  obtain h | h := m.natAbs_eq
  · rw [h, hcast, hsize]
  · rw [h, Int.cast_neg, hcast, neg_mul, toPlaces_neg, hsize]

end

end LinearProgram.Rounding
