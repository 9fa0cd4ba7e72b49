import Mathlib
import LinearProgram.Proofs.Rounding
import LinearProgram.Proofs.Text.Numeral
/-!
# What a written decimal is worth

`value?` reads a decimal in scientific notation as the rational that it stands for, without
rounding it to a double.  A finite double is written as its exact value, rounded in base ten to the
digits that are asked for (`value?_scientific`), and unless it is zero its first digit is not zero
(`head_rounded`).

## How the proof goes

`significant` computes with natural numbers what `magnitude` says with rationals: the power of ten
of the leading digit is the logarithm, and a carry moves the power but not the value
(`value_significant`).  The digits and the exponent are then read back as they were written.
-/
namespace LinearProgram.Decimal

open LinearProgram.Rounding
open LinearProgram.Text (digitsValue exponent? splitSign splitSign_of_isDigit isDigit_of_mem_padded
  padded_ne_nil digitsValue_padded)

/-! ## The exact value of a double -/

theorem numerator_div_denominator (m : Nat) (e : Int) :
    (numerator m e : ℚ) / denominator e = m * (2 : ℚ) ^ e := by
  have hnum : (numerator m e : ℚ) = m * 2 ^ e.toNat := by
    rw [show numerator m e = m * 2 ^ e.toNat from rfl]
    push_cast
    rfl
  have hden : (denominator e : ℚ) = 2 ^ (-e).toNat := by
    rw [show denominator e = 2 ^ (-e).toNat from rfl]
    push_cast
    rfl
  rw [hnum, hden]
  obtain ⟨n, rfl | rfl⟩ := e.eq_nat_or_neg
  · simp
  · rw [neg_neg, Int.toNat_neg_natCast, Int.toNat_natCast, pow_zero, mul_one, zpow_neg,
      zpow_natCast, div_eq_mul_inv]

/-- A number with the sign that is said. -/
def signed (negative : Bool) (x : ℚ) : ℚ :=
  if negative then -x else x

theorem toPlaces_signed (base places : ℕ) (negative : Bool) (x : ℚ) :
    toPlaces base places (signed negative x) = signed negative (toPlaces base places x) := by
  cases negative with
  | false => rfl
  | true => exact toPlaces_neg places x

theorem exactValue?_eq_some_iff (x : Float) (q : ℚ) : exactValue? x = some q ↔
    ∃ negative m e, reading x = .finite negative m e ∧ q = signed negative (m * (2 : ℚ) ^ e) := by
  unfold exactValue?
  cases reading x with
  | nan => simp
  | infinite negative => simp
  | finite negative m e =>
    simp only [Option.some.injEq, Reading.finite.injEq, Rat.mkRat_eq_div, Int.cast_natCast,
      numerator_div_denominator]
    constructor
    · rintro rfl
      exact ⟨negative, m, e, ⟨rfl, rfl, rfl⟩, rfl⟩
    · rintro ⟨_, _, _, ⟨rfl, rfl, rfl⟩, rfl⟩
      rfl

/-! ## Digits -/

/-- The digits of a number that is not zero do not start with zero. -/
theorem head_digits {n : Nat} (hn : n ≠ 0) : (digits n).head? ≠ some '0' := by
  induction n using Nat.strong_induction_on with
  | _ n ih =>
    by_cases hsmall : n < 10
    · rw [digits, Nat.toDigits_of_lt_base hsmall]
      interval_cases n <;> simp_all [Nat.digitChar]
    · have hsplit : digits n = digits (n / 10) ++ [(n % 10).digitChar] :=
        Nat.toDigits_of_base_le (by decide) (not_lt.mp hsmall)
      have hhead : (digits n).head? = (digits (n / 10)).head? := by
        rw [hsplit]
        exact List.head?_append_of_ne_nil _ Nat.toDigits_ne_nil
      rw [hhead]
      exact ih (n / 10) (by omega) (by omega)

theorem digitsValue_digits (n : Nat) : digitsValue (digits n) = n :=
  Nat.ofDigitChars_ten_toDigits

/-! ## Rounded fractions -/

/-- **The rounded digits are worth the rounded fraction.** -/
theorem value_significant (k : Nat) {num den : Nat} (hnum : num ≠ 0) (hden : den ≠ 0) :
    ((significant (k + 1) num den).coefficient : ℚ) *
      (10 : ℚ) ^ ((significant (k + 1) num den).exponent - k) = magnitude 10 k (num / den) := by
  have hten : (10 : ℚ) ≠ 0 := by norm_num
  have hpos : (0 : ℚ) < num / den := by positivity
  obtain ⟨hlow, hhigh⟩ := leadingExponent_spec hnum hden
  have hlog : Int.log 10 ((num : ℚ) / den) = leadingExponent num den :=
    log_eq (by decide) hpos (by exact_mod_cast hlow) (by exact_mod_cast hhigh)
  have hround : roundDiv (scale num den (k - leadingExponent num den)).1
      (scale num den (k - leadingExponent num den)).2 =
        nearest (num / den * (10 : ℚ) ^ ((k : ℤ) - leadingExponent num den)) := by
    rw [roundDiv_eq_nearest _ (scale_snd_pos hden num _).ne', scale_div]
  have hpower : ((k + 1 : Nat) : Int) - 1 - leadingExponent num den =
      k - leadingExponent num den := by
    push_cast
    ring
  unfold significant magnitude
  simp only [hlog, hpower, hround, Nat.add_sub_cancel, Nat.cast_ofNat]
  split_ifs with hcarry
  · -- The carry is a power of ten, which moves into the exponent.
    rw [hcarry]
    simp only [Nat.pow_eq, Nat.cast_pow, Nat.cast_ofNat, ← zpow_natCast]
    rw [← zpow_add₀ hten, ← zpow_add₀ hten]
    congr 1
    push_cast
    ring
  · rfl

/-- The digits and the power of ten that are written for a size are worth the rounded size. -/
theorem value_rounded (k m : Nat) (e : Int) :
    (digitsValue (rounded (k + 1) m e).1 : ℚ) * (10 : ℚ) ^ ((rounded (k + 1) m e).2 - k) =
      magnitude 10 k (m * (2 : ℚ) ^ e) := by
  unfold rounded
  split_ifs with hm
  · have hzeros : digitsValue (List.replicate (k + 1) '0') = 0 := by
      rw [digitsValue, Nat.ofDigitChars_replicate_zero, Nat.mul_zero]
    rw [hzeros, hm, Nat.cast_zero, zero_mul, zero_mul, magnitude_zero]
  · rw [digitsValue_digits, ← numerator_div_denominator,
      ← value_significant k (numerator_ne_zero hm e) (denominator_ne_zero e)]

/-- The digits of a size that is not zero do not start with zero. -/
theorem head_rounded (k : Nat) {m : Nat} (hm : m ≠ 0) (e : Int) :
    (rounded (k + 1) m e).1.head? ≠ some '0' := by
  obtain ⟨hlow, _⟩ :=
    coefficient_significant (k := k) (numerator_ne_zero hm e) (denominator_ne_zero e)
  have hpow : 0 < 10 ^ k := Nat.pow_pos (by decide)
  unfold rounded
  rw [if_neg hm]
  exact head_digits (by omega)

/-! ## Reading -/

/-- The rational that a decimal stands for: a sign or none, digits with a point or none, and an
exponent or none. -/
def value? (t : List Char) : Option ℚ :=
  let (negative, body) := splitSign t
  let whole := body.takeWhile Char.isDigit
  let (fraction, rest) :=
    match body.dropWhile Char.isDigit with
    | '.' :: more => (more.takeWhile Char.isDigit, more.dropWhile Char.isDigit)
    | more => ([], more)
  if whole.isEmpty && fraction.isEmpty then none
  else (exponent? rest).map fun (e : ℤ) =>
    signed negative (digitsValue (whole ++ fraction) * (10 : ℚ) ^ (e - fraction.length))

theorem exponent?_exponentText (e : Int) : exponent? (exponentText e) = some e := by
  have hsplit : splitSign ((if e < 0 then '-' else '+') :: padded 2 e.natAbs) =
      (decide (e < 0), padded 2 e.natAbs) := by
    by_cases he : e < 0 <;> simp [he, splitSign]
  have hdigits : (padded 2 e.natAbs).all Char.isDigit = true :=
    List.all_eq_true.mpr fun _ hd => isDigit_of_mem_padded hd
  have hne := padded_ne_nil 2 e.natAbs
  unfold exponent? exponentText
  simp only [hsplit, hdigits, digitsValue_padded]
  by_cases he : e < 0
  · simp [he, hne, abs_of_neg he]
  · simp [he, hne, abs_of_nonneg (not_lt.mp he)]

/-- The sign of what is written in scientific notation is read off. -/
theorem splitSign_scientificText (negative : Bool) {first second : Char} {ds : List Char}
    (hdigits : ∀ d ∈ first :: second :: ds, d.isDigit = true) (e : Int) :
    splitSign ((if negative then ['-'] else []) ++ scientificText (first :: second :: ds) e) =
      (negative, scientificText (first :: second :: ds) e) := by
  have hfirst := hdigits first List.mem_cons_self
  cases negative with
  | true => rfl
  | false =>
    unfold scientificText splitSign
    split
    · next heq => cases heq; exact absurd hfirst (by decide)
    · next heq => cases heq; exact absurd hfirst (by decide)
    · rfl

/-- What is written in scientific notation is read back. -/
theorem value?_scientificText (negative : Bool) {first second : Char} {ds : List Char}
    (hdigits : ∀ d ∈ first :: second :: ds, d.isDigit = true) (e : Int) :
    value? ((if negative then ['-'] else []) ++ scientificText (first :: second :: ds) e) =
      some (signed negative (digitsValue (first :: second :: ds) *
        (10 : ℚ) ^ (e - (ds.length + 1 : Nat)))) := by
  have hsign := splitSign_scientificText negative hdigits e
  obtain ⟨hfirst, hrest⟩ := List.forall_mem_cons.mp hdigits
  have hpoint : Char.isDigit '.' = false := by decide
  have hwhole : (scientificText (first :: second :: ds) e).takeWhile Char.isDigit = [first] := by
    simp [scientificText, hfirst, hpoint]
  have hafter : (scientificText (first :: second :: ds) e).dropWhile Char.isDigit =
      '.' :: (second :: ds ++ exponentText e) := by
    simp [scientificText, hfirst, hpoint]
  have hfraction : (second :: ds ++ exponentText e).takeWhile Char.isDigit = second :: ds := by
    rw [List.takeWhile_append_of_pos hrest]
    simp [exponentText]
  have hexponent : (second :: ds ++ exponentText e).dropWhile Char.isDigit = exponentText e := by
    rw [List.dropWhile_append_of_pos hrest]
    simp [exponentText]
  unfold value?
  simp only [hsign, hwhole, hafter, hfraction, hexponent, exponent?_exponentText]
  rfl

/-- **A finite double is written as its exact value, rounded to the digits that are asked for.** -/
theorem value?_scientific {x : Float} {q : ℚ} (h : exactValue? x = some q) (k : Nat) :
    value? (scientific (k + 1) x) = some (toPlaces 10 (k + 1) q) := by
  obtain ⟨negative, m, e, hreading, rfl⟩ := (exactValue?_eq_some_iff x q).mp h
  have hlength := length_rounded (k + 1) m e
  have hdigits := rounded_digits (k + 1 + 1) m e
  have hvalue := value_rounded (k + 1) m e
  unfold scientific
  simp only [hreading]
  generalize rounded (k + 1 + 1) m e = s at hlength hdigits hvalue
  obtain ⟨ds, power⟩ := s
  match ds with
  | [] => simp at hlength
  | [_] => simp at hlength
  | first :: second :: ds =>
    have hcount : ds.length = k := by simpa using hlength
    rw [value?_scientificText negative hdigits, hcount, hvalue, toPlaces_signed,
      toPlaces_of_nonneg _ (by positivity)]

end LinearProgram.Decimal
