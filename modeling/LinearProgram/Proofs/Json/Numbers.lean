import Mathlib
import LinearProgram.Json.Parser
import LinearProgram.Json.Printer
import LinearProgram.Proofs.Decimal.Shortest
import LinearProgram.Proofs.Double.Reading
/-!
# Printed numbers are read back

A double is printed with the fewest digits that are worth a number in its interval, and what is
read is the double in whose interval the digits lie.  So a real is read back as the same double
(`value_printReal`), whatever follows it in an array or an object, and so is an integer
(`value_int`).

## How the proof goes

A number is printed with a point or with an exponent, and both are cases of a `Numeral`: digits,
perhaps a fraction, perhaps an exponent.  The parser takes such a text apart again
(`number_text`), part after part, because no part goes on with what the next one starts with.
What remains is to see that the parts are worth what the digits were (`exists_numeral_render`).
-/
namespace LinearProgram.Json

open LinearProgram.Decimal
open LinearProgram.Text (ofChars digitsValue realOfDecimal)

/-! ## What follows -/

/-- What may follow a value that is written without spaces. -/
inductive Follows : Text → Prop where
  | nothing : Follows []
  | comma (t : Text) : Follows (.char ',' :: t)
  | bracket (t : Text) : Follows (.char ']' :: t)
  | brace (t : Text) : Follows (.char '}' :: t)

/-- No digit stands at the front. -/
def EndsDigits (t : Text) : Prop :=
  ∀ p ∈ t.head?, p.isIn Char.isDigit = false

/-- Neither a digit nor a point stands at the front. -/
def EndsFraction (t : Text) : Prop :=
  EndsDigits t ∧ t.head? ≠ some (.char '.')

theorem Follows.endsFraction {t : Text} (h : Follows t) : EndsFraction t := by
  cases h <;> exact ⟨by simp [EndsDigits, CodePoint.isIn], by simp⟩

/-! ## Digits -/

theorem chars_ofChars (cs : List Char) : Text.chars (ofChars cs) = cs := by
  rw [Text.chars, ofChars, List.map_map]
  exact List.map_id cs

theorem ofChars_append (cs ds : List Char) : ofChars (cs ++ ds) = ofChars cs ++ ofChars ds :=
  List.map_append

section

variable {ds : List Char} (hds : ∀ d ∈ ds, d.isDigit = true) {t : Text} (ht : EndsDigits t)

include hds

theorem isIn_isDigit : ∀ p ∈ ofChars ds, p.isIn Char.isDigit = true := by
  intro p hp
  obtain ⟨d, hd, rfl⟩ := List.mem_map.mp hp
  exact hds d hd

include ht

theorem leadingDigits_append : leadingDigits (ofChars ds ++ t) = ds := by
  have hstop : t.takeWhile (CodePoint.isIn Char.isDigit) = [] := by
    cases t with
    | nil => rfl
    | cons p t => rw [List.takeWhile_cons_of_neg (by simpa using ht p rfl)]
  rw [leadingDigits, List.takeWhile_append_of_pos (isIn_isDigit hds), hstop, List.append_nil,
    chars_ofChars]

theorem afterDigits_append : afterDigits (ofChars ds ++ t) = t := by
  have hstop : t.dropWhile (CodePoint.isIn Char.isDigit) = t := by
    cases t with
    | nil => rfl
    | cons p t => rw [List.dropWhile_cons_of_neg (by simpa using ht p rfl)]
  rw [afterDigits, List.dropWhile_append_of_pos (isIn_isDigit hds), hstop]

end

/-! ## The parts of a number -/

/-- The parts of a number without its sign. -/
structure Numeral where
  whole : List Char
  fraction : List Char
  exponent? : Option Int

namespace Numeral

/-- The text of a fraction; there is no point without digits. -/
def fractionText : List Char → List Char
  | [] => []
  | ds => '.' :: ds

/-- The text of a number. -/
def text (n : Numeral) : List Char :=
  n.whole ++ (fractionText n.fraction ++ n.exponent?.elim [] exponentText)

/-- The digits are digits, and a zero at their front stands alone. -/
structure IsProper (n : Numeral) : Prop where
  whole : ∀ d ∈ n.whole, d.isDigit = true
  nonempty : n.whole ≠ []
  head : n.whole = ['0'] ∨ n.whole.head? ≠ some '0'
  fraction : ∀ d ∈ n.fraction, d.isDigit = true

/-- All digits as one number. -/
def coefficient (n : Numeral) : Nat :=
  digitsValue (n.whole ++ n.fraction)

/-- The power of ten of the last digit. -/
def power (n : Numeral) : Int :=
  n.exponent?.getD 0 - n.fraction.length

/-- Whether there is no fraction and no exponent. -/
def isWhole (n : Numeral) : Bool :=
  n.fraction.isEmpty && n.exponent?.isNone

end Numeral

theorem wholeDigits_append {ds : List Char} (hds : ∀ d ∈ ds, d.isDigit = true)
    (hhead : ds = ['0'] ∨ ds.head? ≠ some '0') (hne : ds ≠ []) {t : Text} (ht : EndsDigits t) :
    wholeDigits (ofChars ds ++ t) = (ds, t) := by
  rcases hhead with rfl | hhead
  · rfl
  · unfold wholeDigits
    split
    · next more heq =>
      cases ds with
      | nil => exact absurd rfl hne
      | cons d ds =>
        obtain ⟨hd, _⟩ := List.cons_eq_cons.mp heq
        exact absurd (congrArg some (CodePoint.char.inj hd)) hhead
    · rw [leadingDigits_append hds ht, afterDigits_append hds ht]

theorem fraction_append {ds : List Char} (hds : ∀ d ∈ ds, d.isDigit = true) {t : Text}
    (ht : EndsFraction t) : fraction (ofChars (Numeral.fractionText ds) ++ t) = (ds, t) := by
  cases ds with
  | nil =>
    show fraction t = ([], t)
    unfold fraction
    split
    · exact absurd rfl ht.2
    · rfl
  | cons d ds =>
    show fraction (.char '.' :: (ofChars (d :: ds) ++ t)) = (d :: ds, t)
    simp only [fraction]
    rw [leadingDigits_append hds ht.1, afterDigits_append hds ht.1]
    rfl

theorem exponent_append (e? : Option Int) {t : Text} (ht : Follows t) :
    exponent (ofChars (e?.elim [] exponentText) ++ t) = (e?, t) := by
  cases e? with
  | none => cases ht <;> rfl
  | some e =>
    have hds : ∀ d ∈ padded 2 e.natAbs, d.isDigit = true := fun _ hd =>
      Text.isDigit_of_mem_padded hd
    have hne : (padded 2 e.natAbs).isEmpty = false :=
      List.isEmpty_eq_false_iff.mpr (Text.padded_ne_nil _ _)
    have hends := ht.endsFraction.1
    have hread : ∀ negative : Bool, sign (ofChars
        ((if negative then '-' else '+') :: padded 2 e.natAbs) ++ t) =
        (negative, ofChars (padded 2 e.natAbs) ++ t) := by
      intro negative
      cases negative <;> rfl
    show exponent (.char 'e' :: (ofChars ((if e < 0 then '-' else '+') :: padded 2 e.natAbs) ++ t))
      = (some e, t)
    have hsign := hread (decide (e < 0))
    simp only [decide_eq_true_eq] at hsign
    simp only [exponent, hsign, leadingDigits_append hds hends, afterDigits_append hds hends, hne,
      Text.digitsValue_padded]
    simp only [decide_true, Bool.true_or, if_true, Bool.false_eq_true, if_false, decide_eq_true_eq]
    congr 2
    split_ifs <;> omega

/-- **A number is taken apart into its parts.** -/
theorem number_text {n : Numeral} (hn : n.IsProper) (start : Text) (negative : Bool) {t : Text}
    (ht : Follows t) : number start negative (ofChars n.text ++ t) =
      if n.isWhole then
        if Text.mostIntegerDigits < n.whole.length then .error (.oversizedInteger n.whole.length)
        else .ok (.int (if negative then -(n.coefficient : Int) else n.coefficient), t)
      else
        .ok (.real (if negative then -realOfDecimal n.coefficient n.power
          else realOfDecimal n.coefficient n.power), t) := by
  have hexponent := exponent_append n.exponent? ht
  have hends : EndsFraction (ofChars (n.exponent?.elim [] exponentText) ++ t) := by
    cases n.exponent? with
    | none => exact ht.endsFraction
    | some e => exact ⟨by simp [EndsDigits, exponentText, ofChars, CodePoint.isIn],
        by simp [exponentText, ofChars]⟩
  have hfraction := fraction_append hn.fraction hends
  have hends' : EndsDigits (ofChars (Numeral.fractionText n.fraction) ++
      (ofChars (n.exponent?.elim [] exponentText) ++ t)) := by
    cases n.fraction with
    | nil => exact hends.1
    | cons d ds => simp [EndsDigits, Numeral.fractionText, ofChars, CodePoint.isIn]
  have hwhole := wholeDigits_append hn.whole hn.head hn.nonempty hends'
  have hne : n.whole.isEmpty = false := List.isEmpty_eq_false_iff.mpr hn.nonempty
  unfold number
  rw [Numeral.text, ofChars_append, ofChars_append, List.append_assoc, List.append_assoc, hwhole]
  simp only [hfraction, hexponent, hne, Bool.false_eq_true, if_false]
  rw [show (n.fraction.isEmpty && n.exponent?.isNone) = n.isWhole from rfl]
  by_cases hint : n.isWhole = true
  · have hnone : n.fraction = [] := by
      simp only [Numeral.isWhole, Bool.and_eq_true, List.isEmpty_iff] at hint
      exact hint.1
    rw [if_pos hint, if_pos hint, Numeral.coefficient, hnone, List.append_nil]
  · rw [if_neg hint, if_neg hint]
    rfl

/-! ## Reals -/

theorem Numeral.fractionText_of_ne_nil {ds : List Char} (h : ds ≠ []) :
    fractionText ds = '.' :: ds := by
  cases ds with
  | nil => exact absurd rfl h
  | cons d ds => rfl

/-- A numeral for a real, worth what the digits are. -/
structure Numeral.Renders (n : Numeral) (ds : List Char) (e : Int) : Prop where
  proper : n.IsProper
  real : n.isWhole = false
  value : n.coefficient * (10 : ℚ) ^ n.power = worth ds e

theorem digitsValue_zeros_append (k : Nat) (ds : List Char) :
    digitsValue (List.replicate k '0' ++ ds) = digitsValue ds := by
  rw [digitsValue, digitsValue, Nat.ofDigitChars_append, Nat.ofDigitChars_replicate_zero,
    Nat.mul_zero]

theorem isDigit_replicate_zero (k : Nat) : ∀ d ∈ List.replicate k '0', d.isDigit = true := by
  intro d hd
  rw [List.eq_of_mem_replicate hd]
  rfl

section

variable {ds : List Char} (hds : ∀ d ∈ ds, d.isDigit = true) (hne : ds ≠ [])

include hds hne

theorem exists_numeral_scientific (e : Int) (hhead : ds = ['0'] ∨ ds.head? ≠ some '0') :
    ∃ n : Numeral, n.Renders ds e ∧ scientificText ds e = n.text := by
  obtain ⟨d, rest, rfl⟩ := List.exists_cons_of_ne_nil hne
  refine ⟨⟨[d], rest, some e⟩, ⟨⟨?_, List.cons_ne_nil _ _, ?_, ?_⟩, ?_, ?_⟩, ?_⟩
  · exact fun c hc => hds c (List.mem_singleton.mp hc ▸ List.mem_cons_self)
  · exact hhead.imp (fun heq => by rw [(List.cons_eq_cons.mp heq).1]) id
  · exact fun c hc => hds c (List.mem_cons_of_mem d hc)
  · simp [Numeral.isWhole]
  · show digitsValue (d :: rest) * (10 : ℚ) ^ (e - rest.length) = worth (d :: rest) e
    rw [worth, List.length_cons]
    congr 2
    push_cast
    ring
  · cases rest <;> rfl

/-- All digits stand after the point. -/
theorem renders_below (k : Nat) : Numeral.Renders ⟨['0'], List.replicate k '0' ++ ds, none⟩ ds
    (-k - 1) where
  proper :=
    { whole := isDigit_replicate_zero 1
      nonempty := List.cons_ne_nil _ _
      head := .inl rfl
      fraction := fun d hd => (List.mem_append.mp hd).elim (isDigit_replicate_zero k d) (hds d) }
  real := by simp [Numeral.isWhole, hne]
  value := by
    show digitsValue (List.replicate (k + 1) '0' ++ ds) * (10 : ℚ) ^
      ((0 : Int) - (List.replicate k '0' ++ ds).length) = worth ds (-k - 1)
    rw [digitsValue_zeros_append, worth, List.length_append, List.length_replicate]
    congr 2
    push_cast
    ring

/-- Zeros stand between the digits and the point. -/
theorem renders_above {k e : Nat} (hk : ds.length + k = e + 1)
    (hhead : (ds = ['0'] ∧ e = 0) ∨ ds.head? ≠ some '0') :
    Numeral.Renders ⟨ds ++ List.replicate k '0', ['0'], none⟩ ds e where
  proper :=
    { whole := fun d hd => (List.mem_append.mp hd).elim (hds d) (isDigit_replicate_zero k d)
      nonempty := List.append_ne_nil_of_left_ne_nil hne _
      head := by
        rcases hhead with ⟨rfl, rfl⟩ | hhead
        · obtain rfl : k = 0 := by simpa using hk
          exact .inl rfl
        · exact .inr (by rwa [List.head?_append_of_ne_nil _ hne])
      fraction := isDigit_replicate_zero 1 }
  real := rfl
  value := by
    show digitsValue (ds ++ List.replicate k '0' ++ List.replicate 1 '0') * (10 : ℚ) ^
      ((0 : Int) - 1) = worth ds e
    rw [List.append_assoc, List.replicate_append_replicate, ← worth_append_zeros ds (k + 1),
      worth, List.length_append, List.length_replicate]
    congr 2
    push_cast
    omega

/-- The point stands among the digits. -/
theorem renders_within {e : Nat} (he : e + 1 < ds.length) (hhead : ds.head? ≠ some '0') :
    Numeral.Renders ⟨ds.take (e + 1), ds.drop (e + 1), none⟩ ds e where
  proper :=
    { whole := fun d hd => hds d (List.mem_of_mem_take hd)
      nonempty := by simp [hne]
      head := .inr (by rwa [List.head?_take, if_neg (Nat.succ_ne_zero _)])
      fraction := fun d hd => hds d (List.mem_of_mem_drop hd) }
  real := by simp [Numeral.isWhole, he]
  value := by
    show digitsValue (ds.take (e + 1) ++ ds.drop (e + 1)) * (10 : ℚ) ^
      ((0 : Int) - (ds.drop (e + 1)).length) = worth ds e
    rw [List.take_append_drop, worth, List.length_drop]
    congr 2
    omega

theorem exists_numeral_positional (e : Int) (hhead : (ds = ['0'] ∧ e = 0) ∨ ds.head? ≠ some '0') :
    ∃ n : Numeral, n.Renders ds e ∧ positionalText true ds e = n.text := by
  unfold positionalText
  by_cases hneg : e < 0
  · obtain ⟨k, hk⟩ : ∃ k : Nat, -e - 1 = k := Int.eq_ofNat_of_zero_le (by omega)
    obtain rfl : e = -k - 1 := by omega
    refine ⟨_, renders_below hds hne k, ?_⟩
    rw [if_pos hneg, hk, Int.toNat_natCast, Numeral.text,
      Numeral.fractionText_of_ne_nil (List.append_ne_nil_of_right_ne_nil _ hne)]
    simp
  · obtain ⟨e, rfl⟩ := Int.eq_ofNat_of_zero_le (not_lt.mp hneg)
    simp only [if_neg hneg, Int.toNat_natCast, if_true]
    by_cases hshort : ds.length ≤ e + 1
    · obtain ⟨k, hk⟩ := Nat.exists_eq_add_of_le hshort
      have hhead' : (ds = ['0'] ∧ e = 0) ∨ ds.head? ≠ some '0' :=
        hhead.imp_left (.imp_right Int.ofNat_eq_zero.mp)
      refine ⟨_, renders_above hds hne hk.symm hhead', ?_⟩
      rw [if_pos hshort, hk, Nat.add_sub_cancel_left]
      simp [Numeral.text, Numeral.fractionText]
    · have hhead' : ds.head? ≠ some '0' := by
        rcases hhead with ⟨rfl, _⟩ | hhead
        · exact absurd (Nat.le_add_left 1 e) hshort
        · exact hhead
      have hfraction : ds.drop (e + 1) ≠ [] := by
        rw [Ne, List.drop_eq_nil_iff]
        exact hshort
      refine ⟨_, renders_within hds hne (not_le.mp hshort) hhead', ?_⟩
      rw [if_neg hshort, Numeral.text, Numeral.fractionText_of_ne_nil hfraction]
      simp

/-- **What is printed for a real is a numeral** that is worth what the digits are. -/
theorem exists_numeral_render (e : Int) (hhead : (ds = ['0'] ∧ e = 0) ∨ ds.head? ≠ some '0')
    (negative : Bool) : ∃ n : Numeral, n.Renders ds e ∧
      plain.render negative ds e = (if negative then ['-'] else []) ++ n.text := by
  unfold Layout.render
  by_cases hplain : (plain.positionalFrom ≤ e && e < plain.positionalBelow) = true
  · obtain ⟨n, hn, htext⟩ := exists_numeral_positional hds hne e hhead
    rw [if_pos hplain]
    exact ⟨n, hn, congrArg _ htext⟩
  · obtain ⟨n, hn, htext⟩ := exists_numeral_scientific hds hne e (hhead.imp_left And.left)
    rw [if_neg hplain]
    exact ⟨n, hn, congrArg _ htext⟩

end

/-! ## Values -/

/-- No digit starts anything but a number. -/
theorem value_digit (room fuel : Nat) {d : Char} (hd : d.isDigit = true) (t : Text) :
    value room (fuel + 1) (.char d :: t) = number (.char d :: t) false (.char d :: t) ∧
      value room (fuel + 1) (.char '-' :: .char d :: t) =
        number (.char '-' :: .char d :: t) true (.char d :: t) := by
  have hmem : d ∈ ['0', '1', '2', '3', '4', '5', '6', '7', '8', '9'] := by
    obtain ⟨hlow, hhigh⟩ := Text.toNat_of_isDigit hd
    rw [← Char.ofNat_toNat d]
    interval_cases d.toNat <;> decide
  simp only [List.mem_cons, List.not_mem_nil, or_false] at hmem
  rcases hmem with rfl | rfl | rfl | rfl | rfl | rfl | rfl | rfl | rfl | rfl <;> exact ⟨rfl, rfl⟩

theorem value_numeral (room fuel : Nat) {n : Numeral} (hn : n.IsProper) (negative : Bool)
    (t : Text) : ∃ start,
      value room (fuel + 1) (ofChars ((if negative then ['-'] else []) ++ n.text) ++ t) =
        number start negative (ofChars n.text ++ t) := by
  obtain ⟨d, whole, hwhole⟩ := List.exists_cons_of_ne_nil hn.nonempty
  have hd : d.isDigit = true := hn.whole d (hwhole ▸ List.mem_cons_self)
  obtain ⟨rest, hrest⟩ : ∃ rest, ofChars n.text ++ t = .char d :: rest := by
    rw [Numeral.text, hwhole]
    exact ⟨_, rfl⟩
  obtain ⟨hplus, hminus⟩ := value_digit room fuel hd rest
  rw [ofChars_append, List.append_assoc, hrest]
  cases negative with
  | false => exact ⟨_, hplus⟩
  | true => exact ⟨_, hminus⟩

theorem eq_zero_of_reading {x : Float} {negative : Bool} {e : Int}
    (h : reading x = .finite negative 0 e) : (if negative then -0.0 else 0.0) = x := by
  unfold reading at h
  cases hx : x.toModel.unpack with
  | notANumber => simp [hx] at h
  | infinity s => simp [hx] at h
  | finite s m' e' hpos =>
    rw [hx] at h
    cases h
    exact absurd hpos (lt_irrefl 0)
  | zero s =>
    rw [hx] at h
    have hmodel := Double.pack_unpack x
    rw [hx] at hmodel
    refine Double.eq_of_toModel_eq ?_
    rw [← hmodel]
    cases s <;> cases h <;> decide +kernel

theorem eq_of_reading_infinite {x : Float} {negative : Bool} (h : reading x = .infinite negative) :
    (if negative then -infinity else infinity) = x := by
  unfold reading at h
  cases hx : x.toModel.unpack with
  | infinity s =>
    rw [hx] at h
    have hmodel := Double.pack_unpack x
    rw [hx] at hmodel
    refine Double.eq_of_toModel_eq ?_
    rw [← hmodel]
    cases s <;> cases h <;> decide +kernel
  | _ => simp [hx] at h

theorem eq_nan_of_reading {x : Float} (h : reading x = .nan) : nan = x := by
  have hmodel := Double.pack_unpack x
  rw [(Double.reading_eq_nan_iff x).mp h] at hmodel
  refine Double.eq_of_toModel_eq ?_
  rw [← hmodel]
  decide +kernel

theorem value_render (room fuel : Nat) {x : Float} {negative : Bool} {ds : List Char} {e : Int}
    (hds : ∀ d ∈ ds, d.isDigit = true) (hne : ds ≠ [])
    (hhead : (ds = ['0'] ∧ e = 0) ∨ ds.head? ≠ some '0')
    (hread : ∀ {c : Nat} {p : Int}, c * (10 : ℚ) ^ p = worth ds e →
      (if negative then -realOfDecimal c p else realOfDecimal c p) = x) {t : Text}
    (ht : Follows t) :
    value room (fuel + 1) (ofChars (plain.render negative ds e) ++ t) = .ok (.real x, t) := by
  obtain ⟨n, hn, htext⟩ := exists_numeral_render hds hne e hhead negative
  obtain ⟨start, hvalue⟩ := value_numeral room fuel hn.proper negative t
  rw [htext, hvalue, number_text hn.proper start negative ht, hn.real, if_neg Bool.false_ne_true,
    hread hn.value]

theorem toList_shortestText {x : Float} {negative : Bool} {m : Nat} {e : Int}
    (h : reading x = .finite negative m e) : (shortestText x).toList =
      if m = 0 then plain.render negative ['0'] 0
      else plain.render negative (shortest m e).1 (shortest m e).2 := by
  unfold shortestText
  rw [h]
  cases m <;> simp

/-- **A real is read back.** -/
theorem value_printReal (room fuel : Nat) (x : Float) {t : Text} (ht : Follows t) :
    value room (fuel + 1) (Text.ofString (printReal x) ++ t) = .ok (.real x, t) := by
  unfold printReal
  cases hx : reading x with
  | nan =>
    rw [← eq_nan_of_reading hx]
    rfl
  | infinite negative =>
    rw [← eq_of_reading_infinite hx]
    cases negative <;> rfl
  | finite negative m e =>
    show value room (fuel + 1) (ofChars (shortestText x).toList ++ t) = .ok (.real x, t)
    rw [toList_shortestText hx]
    by_cases hm : m = 0
    · subst hm
      rw [if_pos rfl]
      have hdigits : ∀ d ∈ ['0'], d.isDigit = true := isDigit_replicate_zero 1
      refine value_render room fuel hdigits (List.cons_ne_nil _ _) (.inl ⟨rfl, rfl⟩) ?_ ht
      intro c p hc
      have hzero : c * (10 : ℚ) ^ p = 0 := by
        rw [hc, worth, show digitsValue ['0'] = 0 from rfl, Nat.cast_zero, zero_mul]
      have hten : (10 : ℚ) ^ p ≠ 0 := zpow_ne_zero p (by norm_num)
      obtain rfl : c = 0 := by exact_mod_cast (mul_eq_zero.mp hzero).resolve_right hten
      exact eq_zero_of_reading hx
    · rw [if_neg hm]
      obtain ⟨hpos, hunpack⟩ := Double.exists_unpack_of_reading hx hm
      have hwrites := writes_shortest (Double.isCanonical_of_unpack hunpack) hpos
      refine value_render room fuel hwrites.digits hwrites.nonempty (.inr hwrites.head) ?_ ht
      intro c p hc
      exact Double.realOfDecimal_of_reads hx hm (hc ▸ hwrites.reads)

theorem toList_toString (n : Int) : (toString n).toList =
    (if decide (n < 0) then ['-'] else []) ++ Numeral.text ⟨digits n.natAbs, [], none⟩ := by
  have htext : Numeral.text ⟨digits n.natAbs, [], none⟩ = digits n.natAbs := List.append_nil _
  rw [htext]
  cases n with
  | ofNat n =>
    have hsign : decide (Int.ofNat n < 0) = false :=
      decide_eq_false (not_lt.mpr (Int.natCast_nonneg n))
    rw [hsign]
    exact Nat.toList_repr
  | negSucc n =>
    rw [decide_eq_true (Int.negSucc_lt_zero n)]
    show ("-" ++ (n + 1).repr).toList = '-' :: digits (n + 1)
    rw [String.toList_append, Nat.toList_repr]
    rfl

/-- **An integer is read back**, unless it has too many digits. -/
theorem value_int (room fuel : Nat) {n : Int}
    (hn : digitCount n.natAbs ≤ Text.mostIntegerDigits) {t : Text} (ht : Follows t) :
    value room (fuel + 1) (Text.ofString (toString n) ++ t) = .ok (.int n, t) := by
  have hproper : Numeral.IsProper ⟨digits n.natAbs, [], none⟩ :=
    { whole := fun d hd => Nat.isDigit_of_mem_toDigits (by decide) (by decide) hd
      nonempty := Nat.toDigits_ne_nil
      head := by
        by_cases hzero : n.natAbs = 0
        · exact .inl (by rw [hzero]; rfl)
        · exact .inr (head_digits hzero)
      fraction := fun d hd => by cases hd }
  obtain ⟨start, hvalue⟩ := value_numeral room fuel hproper (decide (n < 0)) t
  have hwhole : Numeral.isWhole ⟨digits n.natAbs, [], none⟩ = true := rfl
  have hlength : ¬ Text.mostIntegerDigits < (digits n.natAbs).length := not_lt.mpr hn
  rw [Text.ofString, toList_toString, hvalue, number_text hproper start _ ht, if_pos hwhole,
    if_neg hlength, Numeral.coefficient, List.append_nil, digitsValue_digits]
  simp only [decide_eq_true_eq]
  congr 3
  split_ifs <;> omega

end LinearProgram.Json
