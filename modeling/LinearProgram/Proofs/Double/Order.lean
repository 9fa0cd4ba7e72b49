import Mathlib
import LinearProgram.Number
import LinearProgram.Scalar.Double
/-!
# The order of numbers over the doubles

Doubles are ordered except for NaN, which compares with nothing, itself included.  Integers and
truth values are compared with doubles by their exact values, and are never NaN.  So a test that
a number is not below another one says that it is at least as great only if neither is NaN
(`atMost_iff`): the order can be read backwards (`compare?_swap`), and there is none exactly for
a NaN (`compare?_eq_none_iff`).  A number that equals an integer is neither NaN nor infinite
(`isFinite_of_equals`).
-/
namespace LinearProgram

open Float.Model Float.Model.UnpackedFloat
open LinearProgram.Decimal (Reading reading)

namespace Double

/-! ## Doubles -/

/-- The order of doubles read backwards. -/
theorem unpacked_compare_swap (u v : UnpackedFloat) :
    v.compare u = (u.compare v).map Ordering.swap := by
  have hexponent : ∀ d e : Int, compare e d = (compare d e).swap := fun d e =>
    Std.OrientedCmp.eq_swap
  have hmantissa : ∀ k l : Nat, compare l k = (compare k l).swap := fun k l =>
    Std.OrientedCmp.eq_swap
  cases u with
  | notANumber => cases v <;> rfl
  | infinity s =>
    cases v with
    | notANumber => rfl
    | infinity t => cases s <;> cases t <;> rfl
    | zero t => cases s <;> rfl
    | finite t k d hk => cases s <;> rfl
  | zero s =>
    cases v with
    | notANumber => rfl
    | infinity t => cases t <;> rfl
    | zero t => rfl
    | finite t k d hk => cases t <;> rfl
  | finite s m e hm =>
    cases v with
    | notANumber => rfl
    | infinity t => cases t <;> rfl
    | zero t => cases s <;> rfl
    | finite t k d hk =>
      cases s <;> cases t <;>
        simp [UnpackedFloat.compare, hexponent e d, hmantissa m k, Ordering.swap_then]

/-- Two doubles are ordered unless one of them is NaN. -/
theorem unpacked_compare_eq_none_iff (u v : UnpackedFloat) :
    u.compare v = none ↔ u = .notANumber ∨ v = .notANumber := by
  cases u with
  | notANumber => simp [UnpackedFloat.compare]
  | infinity s => cases v <;> cases s <;> simp [UnpackedFloat.compare]
  | zero s =>
    cases v with
    | notANumber => simp [UnpackedFloat.compare]
    | infinity t => cases t <;> simp [UnpackedFloat.compare]
    | zero t => simp [UnpackedFloat.compare]
    | finite t k d hk => cases t <;> simp [UnpackedFloat.compare]
  | finite s m e hm =>
    cases v with
    | notANumber => simp [UnpackedFloat.compare]
    | infinity t => cases t <;> simp [UnpackedFloat.compare]
    | zero t => cases s <;> simp [UnpackedFloat.compare]
    | finite t k d hk => cases s <;> cases t <;> simp [UnpackedFloat.compare]

theorem lt_iff (x y : Float) :
    Scalar.lt x y = true ↔ x.toModel.unpack.compare y.toModel.unpack = some .lt := by
  have hmodel : Float.lt x y = decide (x.toModel < y.toModel) := rfl
  have hunpacked : (x.toModel < y.toModel) =
      ((x.toModel.unpack.compare y.toModel.unpack == some .lt) = true) := rfl
  have hscalar : (Scalar.lt x y = true) = (decide (x < y) = true) := rfl
  have hlt : (x < y) = (Float.lt x y = true) := rfl
  rw [hscalar, decide_eq_true_iff, hlt, hmodel, decide_eq_true_iff, hunpacked, beq_iff_eq]

theorem eq_iff (x y : Float) :
    Scalar.eq x y = true ↔ x.toModel.unpack.compare y.toModel.unpack = some .eq := by
  have hunpacked : Scalar.eq x y = (x.toModel.unpack.compare y.toModel.unpack == some .eq) := rfl
  rw [hunpacked, beq_iff_eq]

/-- The order of two doubles is that of what they stand for. -/
theorem compare?_eq (x y : Float) :
    Scalar.compare? x y = x.toModel.unpack.compare y.toModel.unpack := by
  have hswap := unpacked_compare_swap x.toModel.unpack y.toModel.unpack
  simp only [Scalar.compare?, lt_iff, eq_iff, hswap]
  cases x.toModel.unpack.compare y.toModel.unpack with
  | none => simp
  | some o => cases o <;> simp

theorem reading_eq_nan_iff (x : Float) : reading x = .nan ↔ x.toModel.unpack = .notANumber := by
  unfold reading
  cases x.toModel.unpack <;> simp

theorem compareInt_eq_none_iff (x : Float) (n : Int) :
    compareInt x n = none ↔ reading x = .nan := by
  unfold compareInt
  cases reading x <;> simp

theorem isFinite_iff (x : Float) :
    isFinite x = true ↔ ∃ negative m e, reading x = .finite negative m e := by
  unfold isFinite
  cases reading x <;> simp

/-- An integer that has a double has a finite one. -/
theorem isFinite_of_ofInt? {n : Int} {x : Float} (h : ofInt? n = some x) : isFinite x = true := by
  unfold ofInt? at h
  dsimp only at h
  split at h
  · next negative m e hreading =>
    obtain rfl := Option.some.inj h
    exact (isFinite_iff _).mpr ⟨negative, m, e, hreading⟩
  · cases h

/-- A double that equals an integer is finite. -/
theorem isFinite_of_compareInt {x : Float} {n : Int} (h : compareInt x n = some .eq) :
    isFinite x = true := by
  unfold compareInt at h
  cases hreading : reading x with
  | nan => simp [hreading] at h
  | infinite negative => cases negative <;> simp [hreading] at h
  | finite negative m e => exact (isFinite_iff x).mpr ⟨negative, m, e, hreading⟩

theorem isFinite_of_eq_zero {x : Float} (h : Scalar.eq x 0 = true) : isFinite x = true := by
  have hcompare : x.toModel.unpack.compare (.zero .positive) = some .eq := (eq_iff x 0).mp h
  unfold isFinite reading
  cases hx : x.toModel.unpack with
  | infinity s => cases s <;> simp [hx, UnpackedFloat.compare] at hcompare
  | notANumber => simp [hx, UnpackedFloat.compare] at hcompare
  | zero s => rfl
  | finite s m e hm => rfl

end Double

/-! ## Numbers -/

namespace Number

/-- Whether the number is NaN, which no integer is. -/
def isNaN : Number Float → Bool
  | real x => reading x = .nan
  | _ => false

/-- The first number is less than the second or equal to it. -/
def AtMost (a b : Number Float) : Prop :=
  a.less b = true ∨ a.equals b = true

instance (a b : Number Float) : Decidable (a.AtMost b) :=
  inferInstanceAs (Decidable (_ ∨ _))

/-- The order of numbers read backwards. -/
theorem compare?_swap (a b : Number Float) :
    b.compare? a = (a.compare? b).map Ordering.swap := by
  have hint : ∀ j k : Int, compare k j = (compare j k).swap := fun j k =>
    Std.OrientedCmp.eq_swap
  have hback : ∀ o? : Option Ordering, (o?.map Ordering.swap).map Ordering.swap = o? := by
    intro o?
    cases o? <;> simp
  cases a with
  | int j =>
    cases b with
    | int k => simpa [compare?, integer?] using hint j k
    | bool c => simpa [compare?, integer?] using hint j _
    | real y => simp [compare?, integer?, hback]
  | bool c =>
    cases b with
    | int k => simpa [compare?, integer?] using hint _ k
    | bool d => simpa [compare?, integer?] using hint _ _
    | real y => simp [compare?, integer?, hback]
  | real x =>
    cases b with
    | int k => rfl
    | bool c => rfl
    | real y =>
      simp only [compare?, Double.compare?_eq]
      exact Double.unpacked_compare_swap _ _

/-- Two numbers are ordered unless one of them is NaN. -/
theorem compare?_eq_none_iff (a b : Number Float) :
    a.compare? b = none ↔ a.isNaN = true ∨ b.isNaN = true := by
  have hint : ∀ (x : Float) (n : Int), Scalar.compareInt x n = none ↔ reading x = .nan :=
    Double.compareInt_eq_none_iff
  cases a with
  | int j => cases b <;> simp [compare?, integer?, isNaN, hint]
  | bool c => cases b <;> simp [compare?, integer?, isNaN, hint]
  | real x =>
    cases b with
    | int k => simp [compare?, integer?, isNaN, hint]
    | bool c => simp [compare?, integer?, isNaN, hint]
    | real y =>
      simp only [compare?, Double.compare?_eq, Double.unpacked_compare_eq_none_iff, isNaN,
        decide_eq_true_eq, Double.reading_eq_nan_iff]

/-- **A number that is not above another one is at most as great unless one of them is NaN.** -/
theorem atMost_iff {a b : Number Float} (h : b.less a = false) :
    a.AtMost b ↔ a.isNaN = false ∧ b.isNaN = false := by
  have hnone := compare?_eq_none_iff a b
  have hnotLess : a.compare? b ≠ some .gt := by
    intro hgt
    have hswap := compare?_swap a b
    rw [hgt] at hswap
    simp [less, hswap] at h
  have hneither : (a.isNaN = false ∧ b.isNaN = false) ↔ a.compare? b ≠ none := by
    rw [ne_eq, hnone, not_or, Bool.not_eq_true, Bool.not_eq_true]
  rw [hneither, AtMost, less, equals, decide_eq_true_iff, decide_eq_true_iff]
  cases ho : a.compare? b with
  | none => simp
  | some o => cases o <;> simp_all

/-! ### Numbers that are finite -/

variable {k : Number Float} {x : Float}

/-- A number that compares with an integer as equal has a finite double. -/
theorem isFinite_of_equals {n : Int} (h : k.equals (.int n) = true) (hx : k.real? = some x) :
    Double.isFinite x = true := by
  cases k with
  | int j => exact Double.isFinite_of_ofInt? hx
  | bool b => exact Double.isFinite_of_ofInt? hx
  | real y =>
    obtain rfl := Option.some.inj hx
    exact Double.isFinite_of_compareInt (of_decide_eq_true h)

/-- A zero is a double or has one. -/
theorem exists_real?_of_isZero (h : k.isZero = true) : ∃ x, k.real? = some x := by
  have hfits : (Double.ofInt? 0).isSome = true := by decide +kernel
  cases k with
  | int n =>
    obtain rfl : n = 0 := by simpa [isZero] using h
    exact Option.isSome_iff_exists.mp hfits
  | bool b =>
    obtain rfl : b = false := by simpa [isZero] using h
    exact Option.isSome_iff_exists.mp hfits
  | real x => exact ⟨x, rfl⟩

theorem isFinite_of_isZero (h : k.isZero = true) (hx : k.real? = some x) :
    Double.isFinite x = true := by
  cases k with
  | int j => exact Double.isFinite_of_ofInt? hx
  | bool b => exact Double.isFinite_of_ofInt? hx
  | real y =>
    obtain rfl := Option.some.inj hx
    exact Double.isFinite_of_eq_zero h

end Number

end LinearProgram
