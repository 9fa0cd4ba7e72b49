import Mathlib
import LinearProgram.Number
import LinearProgram.Scalar.Double
/-!
# Sums that start from zero

Factors are summed from the integer 0 on, so the first sum of all is zero plus a factor.  For
a factor that is not zero this is the factor itself (`sum?_singleton`): an infinity and NaN stay
what they are, and a finite double is taken apart and packed again, which changes nothing
(`pack_unpack`).  Only a truth value becomes an integer.
-/
namespace LinearProgram.Double

open Float.Model Float.Model.UnpackedFloat

/-- Taking a double apart and packing it again changes nothing. -/
theorem pack_unpack (x : Float) : Float.Model.pack x.toModel.unpack = x.toModel := by
  obtain ⟨⟨bits, hvalid⟩⟩ := x
  have hbits := UnpackedFloat.pack_unpack_of_valid hvalid
  simp only [Float.Model.pack, Float.Model.unpack, Float.Model.mk.injEq]
  rw [hbits]

theorem isZero_real (x : Float) : (Number.real x).isZero =
    (x.toModel.unpack.compare (.zero .positive) == some .eq) := rfl

/-- Zero plus a double that is not zero is this double, be it infinite or NaN. -/
theorem zero_add_of_isZero_eq_false {x : Float} (h : (Number.real x).isZero = false) :
    (0 : Float) + x = x := by
  have hadd : UnpackedFloat.add .binary64 (.zero .positive) x.toModel.unpack
      = x.toModel.unpack := by
    rw [isZero_real] at h
    cases hx : x.toModel.unpack with
    | infinity s => rfl
    | notANumber => rfl
    | zero s => simp [hx, UnpackedFloat.compare] at h
    | finite s m e hpos => rfl
  have hsum : ((0 : Float) + x).toModel
      = Float.Model.pack (UnpackedFloat.add .binary64 (.zero .positive) x.toModel.unpack) := rfl
  rw [hadd, pack_unpack] at hsum
  exact congrArg Float.ofModel hsum

theorem isZero_plus (k : Number Float) : k.plus.isZero = k.isZero := by
  cases k with
  | int n => rfl
  | bool b => cases b <;> rfl
  | real x => rfl

/-- The sum of one number that is not zero is this number, a truth value as an integer. -/
theorem sum?_singleton {k : Number Float} (h : k.isZero = false) :
    Number.sum? [k] = some k.plus := by
  have hzero : (Scalar.ofInt? 0 : Option Float) = some 0 := by decide +kernel
  cases k with
  | int n => simp [Number.sum?, Number.add?, Number.integer?, Number.plus]
  | bool b => simp [Number.sum?, Number.add?, Number.integer?, Number.plus]
  | real x =>
    have hadd : (Number.int 0).add? (Number.real x) = some (.real ((0 : Float) + x)) := by
      simp only [Number.add?, Number.integer?, Number.real?, hzero]
      rfl
    rw [zero_add_of_isZero_eq_false h] at hadd
    simpa [Number.sum?, Number.plus] using hadd

end LinearProgram.Double
