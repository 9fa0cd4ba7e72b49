import Mathlib
import LinearProgram.Proofs.Decimal.Value
import LinearProgram.Proofs.Double.Order
/-!
# The order of doubles is the order of their values

Doubles are compared by exponent first and mantissa second.  This is the order of their exact
values because a double is taken apart in one way only: its mantissa has all of its 53 bits, or
its exponent is the least one (`IsCanonical`).  So numbers, of which some are integers and some
doubles, are compared by their exact values (`compare?_eq`, `atMost_iff_le`), and a double has no
more binary digits than rounding leaves it (`toPlaces_of_exactValue?`).
-/
namespace LinearProgram

open Float.Model Float.Model.UnpackedFloat
open LinearProgram.Decimal
open LinearProgram.Rounding

namespace Double

/-! ## The parts of a double -/

/-- A mantissa of 53 bits, or a shorter one with the least exponent. -/
def IsCanonical (m : Nat) (e : Int) : Prop :=
  m < 2 ^ 53 ∧ -1074 ≤ e ∧ (2 ^ 52 ≤ m ∨ e = -1074)

theorem toNat_implicit (mantissa : BitVec 52) :
    (1#1 ++ mantissa).toNat = 2 ^ 52 + mantissa.toNat := by
  rw [BitVec.toNat_append, ← Nat.shiftLeft_add_eq_or_of_lt (BitVec.isLt _), Nat.shiftLeft_eq]
  rfl

theorem isCanonical_of_unpack {bits : BitVec Format.binary64.numBits} {s : Sign} {m : Nat}
    {e : Int} {h : 0 < m} (hunpack : UnpackedFloat.unpack .binary64 bits = .finite s m e h) :
    IsCanonical m e := by
  have hbias : (Format.binary64.exponentBias : Int) = 1023 := by decide
  have hbits : (Format.binary64.mantissaBitsWithoutImplicit : Int) = 52 := by decide
  have hmantissa : (unpackMantissa bits).toNat < 2 ^ 52 := (unpackMantissa bits).isLt
  unfold UnpackedFloat.unpack at hunpack
  dsimp only at hunpack
  rw [hbias, hbits] at hunpack
  split_ifs at hunpack with hfull hinf hzero hzero'
  · cases hunpack
    have hexponent : (unpackExponent bits).toNat = 0 := by rw [hzero]; rfl
    exact ⟨by omega, by omega, .inr (by omega)⟩
  · cases hunpack
    have hexponent : (unpackExponent bits).toNat ≠ 0 := fun h => hzero (BitVec.eq_of_toNat_eq h)
    rw [toNat_implicit]
    exact ⟨by omega, by omega, .inl (by omega)⟩

/-- The exact value of what a double is taken apart into; none if it is not finite. -/
def valueOf? : UnpackedFloat → Option ℚ
  | .finite .positive m e _ => some (m * (2 : ℚ) ^ e)
  | .finite .negative m e _ => some (-(m * (2 : ℚ) ^ e))
  | .zero _ => some 0
  | _ => none

theorem exactValue?_eq (x : Float) : exactValue? x = valueOf? x.toModel.unpack := by
  unfold exactValue? reading
  cases x.toModel.unpack with
  | notANumber => rfl
  | infinity s => rfl
  | zero s => cases s <;> simp [valueOf?, numerator]
  | finite s m e h =>
    have hsize : mkRat (numerator m e) (denominator e) = m * (2 : ℚ) ^ e := by
      rw [Rat.mkRat_eq_div, Int.cast_natCast, numerator_div_denominator]
    cases s with
    | positive => exact congrArg some hsize
    | negative => exact congrArg (some <| -·) hsize

/-- A double has an exact value exactly if it is finite. -/
theorem exists_exactValue?_iff (x : Float) : (∃ q, exactValue? x = some q) ↔ isFinite x = true := by
  unfold exactValue? isFinite
  cases reading x <;> simp

theorem valueOf?_cases {u : UnpackedFloat} {q : ℚ} (h : valueOf? u = some q) :
    (∃ s, u = .zero s ∧ q = 0) ∨
      (∃ m e hm, u = .finite .positive m e hm ∧ q = m * (2 : ℚ) ^ e) ∨
      (∃ m e hm, u = .finite .negative m e hm ∧ q = -(m * (2 : ℚ) ^ e)) := by
  cases u with
  | notANumber => cases h
  | infinity s => cases h
  | zero s => exact .inl ⟨s, rfl, (Option.some.inj h).symm⟩
  | finite s m e hm =>
    cases s with
    | positive => exact .inr (.inl ⟨m, e, hm, rfl, (Option.some.inj h).symm⟩)
    | negative => exact .inr (.inr ⟨m, e, hm, rfl, (Option.some.inj h).symm⟩)

/-- **A double has no more than 53 binary digits.** -/
theorem toPlaces_of_exactValue? {x : Float} {q : ℚ} (h : exactValue? x = some q) :
    toPlaces 2 52 q = q := by
  have hself : ∀ {m : Nat} {e : Int} {s : Sign} {hm}, x.toModel.unpack = .finite s m e hm →
      toPlaces 2 52 (m * (2 : ℚ) ^ e) = m * (2 : ℚ) ^ e := by
    intro m e s hm hu
    have hmantissa : (m : Int).natAbs < 2 ^ (52 + 1) := (isCanonical_of_unpack hu).1
    exact_mod_cast toPlaces_eq_self 52 one_lt_two hmantissa e
  rw [exactValue?_eq] at h
  obtain ⟨s, hu, rfl⟩ | ⟨m, e, hm, hu, rfl⟩ | ⟨m, e, hm, hu, rfl⟩ := valueOf?_cases h
  · exact (toPlaces_eq_zero_iff 52 one_lt_two).mpr rfl
  · exact hself hu
  · rw [toPlaces_neg, hself hu]

/-! ## The order of values -/

/-- Two orders agree if the first decides the second. -/
theorem compare_congr {α β : Type} [LinearOrder α] [LinearOrder β] {a b : α} {c d : β}
    (hlt : a < b → c < d) (heq : a = b → c = d) (hgt : b < a → d < c) :
    compare a b = compare c d := by
  obtain h | h | h := lt_trichotomy a b
  · rw [compare_lt_iff_lt.mpr h, compare_lt_iff_lt.mpr (hlt h)]
  · rw [compare_eq_iff_eq.mpr h, compare_eq_iff_eq.mpr (heq h)]
  · rw [compare_gt_iff_gt.mpr h, compare_gt_iff_gt.mpr (hgt h)]

section

variable {m n : Nat} {e d : Int}

/-- A greater exponent outweighs every mantissa. -/
theorem size_lt (hm : IsCanonical m e) (hn : IsCanonical n d) (h : e < d) :
    (m : ℚ) * (2 : ℚ) ^ e < n * (2 : ℚ) ^ d := by
  obtain ⟨hm, he, _⟩ := hm
  obtain ⟨_, _, hn⟩ := hn
  have hfull : 2 ^ 52 ≤ n := hn.resolve_right (by omega)
  calc (m : ℚ) * (2 : ℚ) ^ e < (2 ^ 53 : ℕ) * (2 : ℚ) ^ e := by gcongr
    _ = (2 ^ 52 : ℕ) * (2 : ℚ) ^ (e + 1) := by
        rw [zpow_add_one₀ (by norm_num)]
        push_cast
        ring
    _ ≤ n * (2 : ℚ) ^ d := by
        gcongr
        · norm_num
        · exact h

theorem compare_size (hm : IsCanonical m e) (hn : IsCanonical n d) :
    (compare e d).then (compare m n) = compare ((m : ℚ) * (2 : ℚ) ^ e) (n * (2 : ℚ) ^ d) := by
  obtain h | rfl | h := lt_trichotomy e d
  · rw [compare_lt_iff_lt.mpr h, compare_lt_iff_lt.mpr (size_lt hm hn h)]
    rfl
  · have hpos : (0 : ℚ) < (2 : ℚ) ^ e := by positivity
    rw [compare_eq_iff_eq.mpr rfl]
    refine compare_congr (fun h => ?_) (fun h => by rw [h]) (fun h => ?_)
    · gcongr
    · gcongr
  · rw [compare_gt_iff_gt.mpr h, compare_gt_iff_gt.mpr (size_lt hn hm h)]
    rfl

end

theorem compare_neg (q r : ℚ) : compare (-q) (-r) = (compare q r).swap := by
  have hswap : compare r q = (compare q r).swap := Std.OrientedCmp.eq_swap
  rw [← hswap]
  exact compare_congr neg_lt_neg_iff.mp (fun h => (neg_inj.mp h).symm) neg_lt_neg_iff.mp

/-- **Doubles are compared as their values are.** -/
theorem compare_unpack {x y : Float} {q r : ℚ} (hq : exactValue? x = some q)
    (hr : exactValue? y = some r) :
    x.toModel.unpack.compare y.toModel.unpack = some (compare q r) := by
  have hx := fun {s m e h} (hu : x.toModel.unpack = .finite s m e h) => isCanonical_of_unpack hu
  have hy := fun {s m e h} (hu : y.toModel.unpack = .finite s m e h) => isCanonical_of_unpack hu
  have hsize : ∀ {n : Nat} {d : Int}, 0 < n → (0 : ℚ) < n * (2 : ℚ) ^ d := by
    intro n d hn
    positivity
  rw [exactValue?_eq] at hq hr
  obtain ⟨s, hu, rfl⟩ | ⟨m, e, hm, hu, rfl⟩ | ⟨m, e, hm, hu, rfl⟩ := valueOf?_cases hq
  · obtain ⟨t, hv, rfl⟩ | ⟨n, d, hn, hv, rfl⟩ | ⟨n, d, hn, hv, rfl⟩ := valueOf?_cases hr
    · rw [hu, hv]
      rfl
    · rw [hu, hv, compare_lt_iff_lt.mpr (hsize hn)]
      rfl
    · rw [hu, hv, compare_gt_iff_gt.mpr (neg_neg_of_pos (hsize hn))]
      rfl
  · obtain ⟨t, hv, rfl⟩ | ⟨n, d, hn, hv, rfl⟩ | ⟨n, d, hn, hv, rfl⟩ := valueOf?_cases hr
    · rw [hu, hv, compare_gt_iff_gt.mpr (hsize hm)]
      rfl
    · rw [← compare_size (hx hu) (hy hv), hu, hv]
      rfl
    · rw [hu, hv, compare_gt_iff_gt.mpr ((neg_neg_of_pos (hsize hn)).trans (hsize hm))]
      rfl
  · obtain ⟨t, hv, rfl⟩ | ⟨n, d, hn, hv, rfl⟩ | ⟨n, d, hn, hv, rfl⟩ := valueOf?_cases hr
    · rw [hu, hv, compare_lt_iff_lt.mpr (neg_neg_of_pos (hsize hm))]
      rfl
    · rw [hu, hv, compare_lt_iff_lt.mpr ((neg_neg_of_pos (hsize hm)).trans (hsize hn))]
      rfl
    · rw [compare_neg, ← compare_size (hx hu) (hy hv), hu, hv]
      rfl

theorem compareInt_eq {x : Float} {q : ℚ} (h : exactValue? x = some q) (n : Int) :
    compareInt x n = some (compare q (n : ℚ)) := by
  unfold exactValue? at h
  unfold compareInt
  cases hreading : reading x with
  | nan => simp [hreading] at h
  | infinite negative => simp [hreading] at h
  | finite negative m e =>
    have hden : (0 : ℚ) < denominator e := by
      exact_mod_cast Nat.pos_of_ne_zero (denominator_ne_zero e)
    have hfraction : ∀ a : Int,
        compare a (n * denominator e) = compare ((a : ℚ) / denominator e) n := by
      intro a
      refine compare_congr (fun h => ?_) (fun h => ?_) (fun h => ?_)
      · rw [div_lt_iff₀ hden]
        exact_mod_cast h
      · rw [div_eq_iff hden.ne']
        exact_mod_cast h
      · rw [lt_div_iff₀ hden]
        exact_mod_cast h
    rw [hreading] at h
    obtain rfl := Option.some.inj h
    cases negative with
    | false =>
      rw [Rat.mkRat_eq_div]
      exact congrArg some (hfraction (numerator m e))
    | true =>
      rw [Rat.mkRat_eq_div]
      have hneg := hfraction (-numerator m e)
      rw [Int.cast_neg, neg_div] at hneg
      exact congrArg some hneg

end Double

/-! ## Numbers as they are given -/

namespace Number

/-- The exact value of a number; none for an infinity or NaN. -/
def exactValue? : Number Float → Option ℚ
  | int n => some n
  | bool b => some (if b then 1 else 0)
  | real x => Decimal.exactValue? x

theorem exactValue?_of_integer? {k : Number Float} {n : Int} (h : k.integer? = some n) :
    k.exactValue? = some (n : ℚ) := by
  cases k with
  | int m => rw [← Option.some.inj h]; rfl
  | bool b =>
    rw [← Option.some.inj h]
    cases b <;> simp [exactValue?]
  | real x => cases h

theorem real?_of_integer? {k : Number Float} {n : Int} (h : k.integer? = some n) :
    k.real? = Double.ofInt? n := by
  cases k with
  | int m => rw [← Option.some.inj h]; rfl
  | bool b => rw [← Option.some.inj h]; rfl
  | real x => cases h

variable {j k : Number Float} {q r : ℚ}

theorem compare?_real_integer {n : Int} (x : Float) (hk : k.integer? = some n) :
    (real x).compare? k = Double.compareInt x n := by
  cases k with
  | int m => rw [← Option.some.inj hk]; rfl
  | bool b => rw [← Option.some.inj hk]; rfl
  | real y => cases hk

theorem compare?_integer {m n : Int} (hj : j.integer? = some m) (hk : k.integer? = some n) :
    j.compare? k = some (compare m n) := by
  have hbind : j.compare? k = j.integer?.bind fun m => k.integer?.map fun n => compare m n := by
    cases j with
    | real x => cases hj
    | _ =>
      cases k with
      | real y => cases hk
      | _ => rfl
  rw [hbind, hj, hk]
  rfl

theorem integer?_eq_none_iff : k.integer? = none ↔ ∃ x, k = real x := by
  cases k <;> simp [integer?]

/-- **Numbers are compared as their values are**, be they integers or doubles. -/
theorem compare?_eq (hq : j.exactValue? = some q) (hr : k.exactValue? = some r) :
    j.compare? k = some (compare q r) := by
  cases hm : j.integer? with
  | none =>
    obtain ⟨x, rfl⟩ := integer?_eq_none_iff.mp hm
    cases hn : k.integer? with
    | none =>
      obtain ⟨y, rfl⟩ := integer?_eq_none_iff.mp hn
      exact (Double.compare?_eq x y).trans (Double.compare_unpack hq hr)
    | some n =>
      obtain rfl := Option.some.inj ((exactValue?_of_integer? hn).symm.trans hr)
      exact (compare?_real_integer x hn).trans (Double.compareInt_eq hq n)
  | some m =>
    obtain rfl := Option.some.inj ((exactValue?_of_integer? hm).symm.trans hq)
    cases hn : k.integer? with
    | none =>
      obtain ⟨y, rfl⟩ := integer?_eq_none_iff.mp hn
      rw [compare?_swap, compare?_real_integer y hm, Double.compareInt_eq hr m]
      exact congrArg some Std.OrientedCmp.eq_swap.symm
    | some n =>
      obtain rfl := Option.some.inj ((exactValue?_of_integer? hn).symm.trans hr)
      rw [compare?_integer hm hn]
      exact congrArg some (Double.compare_congr Int.cast_lt.mpr Int.cast_inj.mpr Int.cast_lt.mpr)

theorem equals_iff (hq : j.exactValue? = some q) (hr : k.exactValue? = some r) :
    j.equals k = true ↔ q = r := by
  rw [equals, compare?_eq hq hr, decide_eq_true_iff, Option.some.injEq, compare_eq_iff_eq]

theorem atMost_iff_le (hq : j.exactValue? = some q) (hr : k.exactValue? = some r) :
    j.AtMost k ↔ q ≤ r := by
  rw [AtMost, equals_iff hq hr, less, compare?_eq hq hr, decide_eq_true_iff, Option.some.injEq,
    compare_lt_iff_lt, le_iff_lt_or_eq]

theorem isZero_iff (hq : k.exactValue? = some q) : k.isZero = true ↔ q = 0 := by
  cases k with
  | int n =>
    obtain rfl := Option.some.inj hq
    simp [isZero]
  | bool b =>
    obtain rfl := Option.some.inj hq
    cases b <;> simp [isZero]
  | real x =>
    have hzero : Decimal.exactValue? 0.0 = some 0 := by
      rw [Double.exactValue?_eq]
      rfl
    refine (Double.eq_iff x 0.0).trans ?_
    rw [Double.compare_unpack hq hzero, Option.some.injEq, compare_eq_iff_eq]

end Number

end LinearProgram
