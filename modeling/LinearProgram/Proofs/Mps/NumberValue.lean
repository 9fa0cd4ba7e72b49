import Mathlib
import LinearProgram.Proofs.Decimal.Value
import LinearProgram.Proofs.Double.Integer
import LinearProgram.Proofs.Mps.NumberText
import LinearProgram.Proofs.Mps.Numbers
/-!
# What the numbers of the model file are worth

A number is written as its double, rounded to thirteen significant digits.  `Renders` lists what
this leaves intact: what is zero, the sign, integers of thirteen digits, and every number up to
half a unit of the last digit.  The order stays as well.  The main statement is
`numberText?_renders`.

## How the proof goes

Number by number there is one equation: the text is that of the double, also where it was ready
(`numberText?_eq`), and is worth the exact value of the double rounded in base ten
(`value?_numberText?`).  All else are laws of rounding; the order is kept twice, from the number
to its double and from the double to its text.
-/
namespace LinearProgram.Mps

open LinearProgram.Decimal (Reading reading exactValue? scientific scientificText rounded
  significant numerator denominator value? digits)
open LinearProgram.Rounding
open LinearProgram.Text (splitSign)

/-! ## The text that is ready -/

/-- Equal parts make the fraction 1, and its digits. -/
theorem significant_self (k : Nat) {n : Nat} (hn : n ≠ 0) :
    significant (k + 1) n n = ⟨10 ^ k, 0⟩ := by
  have hexponent : Decimal.leadingExponent n n = 0 := by
    simp [Decimal.leadingExponent, Decimal.scale]
  have hround : Decimal.roundDiv (n * 10 ^ k) n = 10 ^ k := by
    have hone := roundDiv_mul_right (Nat.pos_of_ne_zero hn) (10 ^ k) 1
    rwa [one_mul, Nat.mul_comm, roundDiv_one] at hone
  have hcarry : (10 : Nat) ^ k ≠ 10 ^ (k + 1) := by
    rw [Nat.pow_succ]
    have : 0 < 10 ^ k := Nat.pow_pos (by decide)
    omega
  have hpower : ((k + 1 : Nat) : Int) - 1 - 0 = k := by
    push_cast
    ring
  unfold significant
  simp only [hexponent, hpower, Decimal.scale, Int.toNat_natCast, Nat.pow_eq, Int.toNat_neg_natCast,
    Nat.pow_zero, Nat.mul_one, hround, if_neg hcarry]

theorem scientific_of_exactValue?_one {x : Float} (h : exactValue? x = some 1) :
    scientific places x = oneText := by
  obtain ⟨negative, m, e, hreading, hone⟩ := (Decimal.exactValue?_eq_some_iff x 1).mp h
  have hsize : (0 : ℚ) ≤ m * (2 : ℚ) ^ e := by positivity
  obtain rfl : negative = false := by
    cases negative with
    | false => rfl
    | true =>
      simp only [Decimal.signed, if_true] at hone
      linarith
  have hm : m ≠ 0 := by
    rintro rfl
    simp [Decimal.signed] at hone
  have hparts : numerator m e = denominator e := by
    have hden : (denominator e : ℚ) ≠ 0 := by exact_mod_cast Decimal.denominator_ne_zero e
    have hquotient : (numerator m e : ℚ) / denominator e = 1 := by
      rw [Decimal.numerator_div_denominator]
      simpa [Decimal.signed] using hone.symm
    exact_mod_cast (div_eq_one_iff_eq hden).mp hquotient
  have hrounded : rounded (12 + 1) m e = (digits (10 ^ 12), 0) := by
    rw [rounded, if_neg hm, hparts, significant_self 12 (Decimal.denominator_ne_zero e)]
  unfold scientific
  simp only [hreading, places, hrounded]
  decide +kernel

/-- A number that compares with 1 as equal has a double, whose value is 1. -/
theorem exists_real?_of_equals_one {k : Number Float} (h : k.equals (.int 1) = true) :
    ∃ x, k.real? = some x ∧ exactValue? x = some 1 := by
  have hone : (Number.int 1 : Number Float).exactValue? = some ((1 : Int) : ℚ) := rfl
  cases hn : k.integer? with
  | none =>
    obtain ⟨x, rfl⟩ := Number.integer?_eq_none_iff.mp hn
    obtain ⟨q, hq⟩ := (Double.exists_exactValue?_iff x).mpr (Number.isFinite_of_equals h rfl)
    have hvalue := (Number.equals_iff (j := .real x) hq hone).mp h
    exact ⟨x, rfl, by rw [hq, hvalue, Int.cast_one]⟩
  | some n =>
    have hvalue := (Number.equals_iff (Number.exactValue?_of_integer? hn) hone).mp h
    obtain rfl : n = 1 := Int.cast_inj.mp hvalue
    have hfits : (Double.ofInt? 1).isSome = true := by decide +kernel
    obtain ⟨x, hx⟩ := Option.isSome_iff_exists.mp hfits
    refine ⟨x, (Number.real?_of_integer? hn).trans hx, ?_⟩
    rw [Double.exactValue?_of_ofInt? hx, (Double.toPlaces_intCast_eq_iff (by decide)).mpr rfl,
      Int.cast_one]

/-- **The text that is ready is the one that the double has.** -/
theorem numberText?_eq (k : Number Float) :
    numberText? k = k.real?.map (scientific places) := by
  unfold numberText?
  split_ifs with hone
  · obtain ⟨x, hx, hvalue⟩ := exists_real?_of_equals_one hone
    rw [hx, Option.map_some, scientific_of_exactValue?_one hvalue]
  · rfl

/-! ## Number by number -/

section

variable {j k : Number Float} {x y : Float} {q r : ℚ}

/-- **The text of a number is worth the exact value of its double, rounded in base ten.** -/
theorem value?_numberText? (hx : k.real? = some x) (hq : exactValue? x = some q) :
    numberText? k = some (scientific places x) ∧
      value? (scientific places x) = some (toPlaces 10 places q) := by
  refine ⟨?_, Decimal.value?_scientific hq 11⟩
  rw [numberText?_eq, hx]
  rfl

/-- A number whose double is finite has an exact value, of which that of the double is the
rounded one. -/
theorem exists_exactValue? (hx : k.real? = some x) (hq : exactValue? x = some q) :
    ∃ w, k.exactValue? = some w ∧ q = toPlaces 2 52 w := by
  obtain ⟨w, hw⟩ : ∃ w, k.exactValue? = some w := by
    cases hn : k.integer? with
    | none =>
      obtain ⟨z, rfl⟩ := Number.integer?_eq_none_iff.mp hn
      obtain rfl := Option.some.inj hx
      exact ⟨q, hq⟩
    | some n => exact ⟨n, Number.exactValue?_of_integer? hn⟩
  exact ⟨w, hw, Option.some.inj (hq.symm.trans (Double.exactValue?_of_real? hx hw))⟩

/-- The first digit of a number that is not zero is not zero. -/
theorem head_scientific (hq : exactValue? x = some q) (hne : q ≠ 0) (k : Nat) :
    (splitSign (scientific (k + 1) x)).2.head? ≠ some '0' := by
  obtain ⟨negative, m, e, hreading, rfl⟩ := (Decimal.exactValue?_eq_some_iff x q).mp hq
  have hm : m ≠ 0 := by
    rintro rfl
    cases negative <;> simp [Decimal.signed] at hne
  have hhead := Decimal.head_rounded (k + 1) hm e
  have hlength := Decimal.length_rounded (k + 1) m e
  have hdigits := Decimal.rounded_digits (k + 1 + 1) m e
  unfold scientific
  simp only [hreading]
  generalize rounded (k + 1 + 1) m e = s at hhead hlength hdigits
  obtain ⟨ds, power⟩ := s
  match ds with
  | [] => simp at hlength
  | [_] => simp at hlength
  | first :: second :: ds =>
    rw [Decimal.splitSign_scientificText negative hdigits]
    simpa [scientificText] using hhead

/-- What is left of a number in its text `t`: its double is `x` with the exact value `q`, and the
text is worth `d`. -/
structure Renders (k : Number Float) (x : Float) (q : ℚ) (t : List Char) (d : ℚ) : Prop where
  text : t = scientific places x
  decimal : IsDecimal 12 t
  leading : q ≠ 0 → (splitSign t).2.head? ≠ some '0'
  zero_iff : d = 0 ↔ q = 0
  isZero_iff : d = 0 ↔ k.isZero = true
  pos_iff : 0 < d ↔ 0 < q
  neg_iff : d < 0 ↔ q < 0
  error : |d - q| ≤ 5 / 10 ^ 13 * |q|
  integer : ∀ n : ℤ, k.exactValue? = some (n : ℚ) → n.natAbs < 10 ^ 13 → d = n

theorem renders (hx : k.real? = some x) (hq : exactValue? x = some q) :
    Renders k x q (scientific places x) (toPlaces 10 places q) := by
  have hten : 1 < 10 := by decide
  obtain ⟨w, hw, hround⟩ := exists_exactValue? hx hq
  have hzero := toPlaces_eq_zero_iff places hten (x := q)
  refine ⟨rfl, ?_, fun hne => head_scientific hq hne 11, hzero, ?_, toPlaces_pos_iff places hten,
    toPlaces_neg_iff places hten, ?_, ?_⟩
  · exact isDecimal_scientific ((Double.exists_exactValue?_iff x).mp ⟨q, hq⟩) 11
  · rw [hzero, Number.isZero_iff hw, hround, toPlaces_eq_zero_iff 52 one_lt_two]
  · have herror := abs_toPlaces_sub_le places hten q
    have hunit : ((10 : ℕ) : ℚ) ^ (-(places : ℤ)) / 2 = 5 / 10 ^ 13 := by
      norm_num [places]
    rwa [hunit] at herror
  · intro n hn hsize
    obtain rfl := Option.some.inj (hw.symm.trans hn)
    have hdouble : toPlaces 2 52 (n : ℚ) = n :=
      (Double.toPlaces_intCast_eq_iff (by omega)).mpr rfl
    rw [hround, hdouble]
    simpa using toPlaces_eq_self places hten hsize 0

/-- The order of numbers is that of what their texts are worth. -/
theorem toPlaces_le_of_atMost (hx : j.real? = some x) (hq : exactValue? x = some q)
    (hy : k.real? = some y) (hr : exactValue? y = some r) (h : j.AtMost k) :
    toPlaces 10 places q ≤ toPlaces 10 places r := by
  obtain ⟨v, hv, rfl⟩ := exists_exactValue? hx hq
  obtain ⟨w, hw, rfl⟩ := exists_exactValue? hy hr
  have hle : v ≤ w := (Number.atMost_iff_le hv hw).mp h
  exact toPlaces_mono places (by decide) (toPlaces_mono 52 one_lt_two hle)

/-- A text that is worth zero is that of a zero. -/
theorem isZero_of_value?_eq_zero {t : List Char} (ht : numberText? k = some t)
    (hvalue : value? t = some 0) : k.isZero = true := by
  rw [numberText?_eq] at ht
  obtain ⟨x, hx, rfl⟩ := Option.map_eq_some_iff.mp ht
  cases hfinite : Double.isFinite x with
  | true =>
    obtain ⟨q, hq⟩ := (Double.exists_exactValue?_iff x).mpr hfinite
    have hzero := Option.some.inj ((value?_numberText? hx hq).2.symm.trans hvalue)
    exact (renders hx hq).isZero_iff.mp hzero
  | false =>
    have hnone : ∀ u ∈ nonFiniteTexts, value? u = none := by
      simp [nonFiniteTexts, value?, splitSign]
    rw [hnone _ (scientific_mem_nonFiniteTexts hfinite places)] at hvalue
    cases hvalue

end

/-! ## In the file -/

section

variable {m : Model Float} {column : Nat} {row : Row} {t : List Char}

/-- Entries stand in the section of the columns. -/
theorem mem_columnLines_of_entry (h : some (.entry column row t) ∈ fileLines m) :
    some (.entry column row t) ∈ columnLines m := by
  simpa [fileLines, rowLines, rhsLines, boundLines] using h

theorem value?_entry_ne_zero (h : some (.entry column row t) ∈ fileLines m) :
    value? t ≠ some 0 := by
  obtain ⟨s, _, hfactor, ht⟩ :=
    (exists_number?_columnLines m t).mp ⟨_, mem_columnLines_of_entry h, rfl⟩
  intro hvalue
  rw [isZero_of_value?_eq_zero ht hvalue] at hfactor
  cases hfactor

/-- **A number that is read off a line is not worth zero**, unless it is a right-hand side. -/
theorem value?_card_ne_zero {l : Line} (h : some l ∈ fileLines m) (ht : l.card.number? = some t)
    (hrhs : l.card.head? ≠ some "RHS".toList) : value? t ≠ some 0 := by
  rw [card_number?_eq h] at ht
  rw [card_eq (isWritten_of_mem_fileLines h)] at hrhs
  cases l with
  | entry column row number =>
    obtain rfl := Option.some.inj ht
    exact value?_entry_ne_zero h
  | rightHandSide k number => exact absurd rfl hrhs
  | _ => cases ht

end

/-- Every factor of a model whose file can be written is a double or has one. -/
theorem real?_of_text? {m : Model Float} {s : String} (h : text? m = some s) :
    ∀ t ∈ m.terms, ∃ x, t.factor.real? = some x := by
  intro t ht
  cases hzero : t.factor.isZero with
  | true => exact Number.exists_real?_of_isZero hzero
  | false =>
    obtain ⟨ls, hls, _⟩ := Option.map_eq_some_iff.mp h
    obtain ⟨i, row, hcolumn⟩ := entry_mem_columnLines ht hzero
    have hmem : (numberText? t.factor).map (.entry i row) ∈ fileLines m := by
      simp [fileLines, hcolumn]
    rw [mapM_id_eq_some_iff.mp hls] at hmem
    obtain ⟨l, _, hl⟩ := List.mem_map.mp hmem
    obtain ⟨u, hu, _⟩ := Option.map_eq_some_iff.mp hl.symm
    rw [numberText?_eq] at hu
    obtain ⟨x, hx, _⟩ := Option.map_eq_some_iff.mp hu
    exact ⟨x, hx⟩

/-- **Numbers survive the model file to thirteen significant digits and in order**, whatever
finite doubles they are, or integers that become such, and no factor is written as zero. -/
theorem numberText?_renders {j k : Number Float} {x y : Float} {q r : ℚ}
    (hx : j.real? = some x) (hq : exactValue? x = some q)
    (hy : k.real? = some y) (hr : exactValue? y = some r) :
    (∃ t u d e, (numberText? j = some t ∧ value? t = some d ∧ Renders j x q t d) ∧
      (numberText? k = some u ∧ value? u = some e ∧ Renders k y r u e) ∧
      (j.AtMost k → d ≤ e)) ∧
    ∀ (m : Model Float) (l : Line) (t : List Char),
      some l ∈ fileLines m → l.card.number? = some t →
        (∃ i ∈ m.numbers, numberText? i = some t) ∧
          (l.card.head? ≠ some "RHS".toList → value? t ≠ some 0) := by
  obtain ⟨ht, hd⟩ := value?_numberText? hx hq
  obtain ⟨hu, he⟩ := value?_numberText? hy hr
  refine ⟨⟨_, _, _, _, ⟨ht, hd, renders hx hq⟩, ⟨hu, he, renders hy hr⟩,
    toPlaces_le_of_atMost hx hq hy hr⟩, ?_⟩
  intro m l t hl hnumber
  exact ⟨(exists_card_number?_iff m t).mp ⟨l, hl, hnumber⟩, value?_card_ne_zero hl hnumber⟩

/-- A double whose digits carry into the next power of ten, and the integer that it then is
worth. -/
theorem numberText?_renders_carry :
    ∃ t u d e, (numberText? (.real 9.9999999999996) = some t ∧ value? t = some d ∧
        Renders (.real 9.9999999999996) 9.9999999999996 (5629499534212895 / 562949953421312) t d) ∧
      (numberText? (.int 10) = some u ∧ value? u = some e ∧ Renders (.int 10) 10.0 10 u e) ∧
      d ≤ e := by
  have hq : exactValue? 9.9999999999996 = some (5629499534212895 / 562949953421312) := by
    decide +kernel
  have hy : (Number.int 10 : Number Float).real? = some 10.0 := by decide +kernel
  have hr : exactValue? 10.0 = some 10 := by decide +kernel
  have horder : Number.AtMost (.real 9.9999999999996) (.int 10) := by decide +kernel
  obtain ⟨⟨t, u, d, e, ht, hu, hle⟩, _⟩ :=
    numberText?_renders (j := .real 9.9999999999996) (k := .int 10) rfl hq hy hr
  exact ⟨t, u, d, e, ht, hu, hle horder⟩

end LinearProgram.Mps
