import Mathlib
import LinearProgram.Decimal.Layout
import LinearProgram.Proofs.Text.Words
import LinearProgram.Text.Numeral
/-!
# What the readers of numbers accept

`integer?` and `real?` allow white space around a number and none inside.  So a text
that one of them accepts is a word among blanks, and the word alone reads as the same
number (`exists_word_of_integer?`, `exists_word_of_real?`); that is what makes a
number on a line a word of the line.

Written digits are read back: `integer?_padded` says so of a position written with
zeros in front, as long as it has no more digits than an integer may have.
-/
namespace LinearProgram.Text

open LinearProgram.Decimal (digits padded)

/-! ## Digits -/

theorem toNat_of_isDigit {c : Char} (h : c.isDigit = true) : 48 ≤ c.toNat ∧ c.toNat ≤ 57 := by
  simpa [Char.isDigit, UInt32.le_iff_toNat_le] using h

theorem isBlank_of_isDigit {c : Char} (h : c.isDigit = true) : isBlank c = false := by
  obtain ⟨hlow, hhigh⟩ := toNat_of_isDigit h
  refine isBlank_eq_false ?_
  simp only [blankPoints, List.mem_cons, List.not_mem_nil, or_false]
  omega

/-- No blank is a digit of any script. -/
theorem asciiDigit_of_isBlank {c : Char} (h : isBlank c = true) : asciiDigit c = c := by
  have hall : ∀ b ∈ blankPoints, decimalZeros.find? (fun z => z ≤ b && b < z + 10) = none := by
    decide
  rw [asciiDigit, digitValue?, hall _ (toNat_mem_blankPoints h)]
  rfl

theorem asciiDigit_of_isDigit {c : Char} (h : c.isDigit = true) : asciiDigit c = c := by
  obtain ⟨hlow, hhigh⟩ := toNat_of_isDigit h
  have hfind : decimalZeros.find? (fun z => z ≤ c.toNat && c.toNat < z + 10) = some 48 := by
    rw [decimalZeros, List.find?_cons_of_pos]
    simp only [Bool.and_eq_true, decide_eq_true_eq]
    omega
  rw [asciiDigit, digitValue?, hfind]
  simp only [Option.map_some]
  rw [Nat.add_sub_cancel' hlow, Char.ofNat_toNat]

/-! ## Parts of a number -/

theorem mem_splitSign {c : Char} {cs : List Char} (h : c ∈ cs) :
    c = '-' ∨ c = '+' ∨ c ∈ (splitSign cs).2 := by
  unfold splitSign
  split
  · exact (List.mem_cons.mp h).imp_right .inr
  · exact .inr (List.mem_cons.mp h)
  · exact .inr (.inr h)

/-- Digits start with no sign. -/
theorem splitSign_of_isDigit {ds : List Char} (h : ∀ d ∈ ds, d.isDigit = true) :
    splitSign ds = (false, ds) := by
  unfold splitSign
  split
  · exact absurd (h '-' (List.mem_cons_self ..)) (by decide)
  · exact absurd (h '+' (List.mem_cons_self ..)) (by decide)
  · rfl

/-- Joining the groups of a number drops nothing but underscores. -/
theorem mem_joinGroups {c : Char} : ∀ {afterDigit : Bool} {cs ds : List Char},
    joinGroups afterDigit cs = some ds → c ∈ cs → c = '_' ∨ c ∈ ds
  | _, [], _, _, hc => by cases hc
  | afterDigit, d :: cs, ds, h, hc => by
    unfold joinGroups at h
    by_cases hd : d = '_'
    · rw [if_pos hd] at h
      cases cs with
      | nil => cases h
      | cons e cs =>
        by_cases he : (afterDigit && e.isDigit) = true
        · simp only [he, if_true] at h
          rcases List.mem_cons.mp hc with rfl | hc
          · exact .inl hd
          · exact mem_joinGroups h hc
        · simp [he] at h
    · rw [if_neg hd] at h
      obtain ⟨es, hes, rfl⟩ := Option.map_eq_some_iff.mp h
      rcases List.mem_cons.mp hc with rfl | hc
      · exact .inr (List.mem_cons_self ..)
      · exact (mem_joinGroups hes hc).imp_right (List.mem_cons_of_mem _)

theorem joinGroups_of_isDigit : ∀ {ds : List Char}, (∀ d ∈ ds, d.isDigit = true) →
    ∀ afterDigit : Bool, joinGroups afterDigit ds = some ds
  | [], _, _ => rfl
  | d :: ds, h, afterDigit => by
    have hd : d ≠ '_' := by
      rintro rfl
      exact absurd (h '_' (List.mem_cons_self ..)) (by decide)
    have hrest := joinGroups_of_isDigit (fun e he => h e (List.mem_cons_of_mem _ he)) d.isDigit
    unfold joinGroups
    rw [if_neg hd, hrest]
    rfl

/-! ## No blank inside a number -/

theorem isBlank_of_mem_exponent {c : Char} {cs : List Char} {e : Int} (h : exponent? cs = some e)
    (hc : c ∈ cs) : isBlank c = false := by
  cases cs with
  | nil => cases hc
  | cons d ds =>
    unfold exponent? at h
    by_cases hd : d = 'e' ∨ d = 'E'
    · simp only [Bool.or_eq_true, decide_eq_true_eq, hd, if_true] at h
      split at h
      · cases h
      next hdigits =>
        have hall : ∀ x ∈ (splitSign ds).2, x.isDigit = true := by
          simp only [not_or, Bool.not_eq_true', Bool.not_eq_false, List.all_eq_true] at hdigits
          exact hdigits.2
        rcases List.mem_cons.mp hc with rfl | hc
        · rcases hd with rfl | rfl <;> decide
        rcases mem_splitSign hc with rfl | rfl | hc
        · decide
        · decide
        · exact isBlank_of_isDigit (hall c hc)
    · simp [hd] at h

theorem isBlank_of_mem_decimal {c : Char} {cs : List Char} {x : Float} (h : decimal? cs = some x)
    (hc : c ∈ cs) : isBlank c = false := by
  have hdigits : ∀ {ds : List Char}, c ∈ ds.takeWhile Char.isDigit → isBlank c = false :=
    fun hd => isBlank_of_isDigit (List.mem_takeWhile_imp hd)
  rw [← List.takeWhile_append_dropWhile (p := Char.isDigit) (l := cs), List.mem_append] at hc
  rcases hc with hc | hc
  · exact hdigits hc
  · have hexponent : ∀ {missing : Bool} {rest : List Char} {value : Int → Float},
        (if missing = true then none else (exponent? rest).map value) = some x →
          ∃ e, exponent? rest = some e := by
      intro missing rest value hx
      cases missing with
      | true => cases hx
      | false =>
        obtain ⟨e, he, _⟩ := Option.map_eq_some_iff.mp hx
        exact ⟨e, he⟩
    unfold decimal? at h
    simp only at h
    -- What follows the whole digits is a point with digits and the rest, or the rest.
    split at h
    next more hmore =>
      obtain ⟨e, he⟩ := hexponent h
      rw [hmore, ← List.takeWhile_append_dropWhile (p := Char.isDigit) (l := more)] at hc
      rcases List.mem_cons.mp hc with rfl | hc
      · decide
      · rcases List.mem_append.mp hc with hc | hc
        · exact hdigits hc
        · exact isBlank_of_mem_exponent he hc
    next =>
      obtain ⟨e, he⟩ := hexponent h
      exact isBlank_of_mem_exponent he hc

theorem toLower_of_isBlank {c : Char} (h : isBlank c = true) : c.toLower = c := by
  have hpoint := toNat_mem_blankPoints h
  have hupper : ¬ (65 ≤ c.toNat ∧ c.toNat ≤ 90) := by
    simp only [blankPoints, List.mem_cons, List.not_mem_nil, or_false] at hpoint
    omega
  have hval : ¬ (65 ≤ c.val.toNat ∧ c.val.toNat ≤ 90) := hupper
  unfold Char.toLower
  rw [dif_neg]
  simpa [UInt32.le_iff_toNat_le] using hval

theorem isBlank_of_mem_named {c : Char} {cs : List Char} {x : Float} (h : named? cs = some x)
    (hc : c ∈ cs) : isBlank c = false := by
  rw [Bool.eq_false_iff]
  intro hblank
  have hword : c ∈ cs.map Char.toLower :=
    List.mem_map.mpr ⟨c, hc, toLower_of_isBlank hblank⟩
  have hletters : ∀ {w : List Char}, w.any isBlank = false → cs.map Char.toLower = w → False := by
    intro w hw e
    rw [e] at hword
    exact absurd hblank (List.any_eq_false.mp hw c hword)
  unfold named? at h
  simp only [Bool.or_eq_true, decide_eq_true_eq] at h
  split at h
  next hinf => rcases hinf with e | e <;> exact hletters (by decide) e
  next =>
    split at h
    next e => exact hletters (by decide) e
    next => cases h

theorem isBlank_of_mem_signedReal {c : Char} {cs : List Char} {x : Float}
    (h : signedReal? cs = some x) (hc : c ∈ cs) : isBlank c = false := by
  unfold signedReal? at h
  obtain ⟨y, hy, _⟩ := Option.map_eq_some_iff.mp h
  rcases mem_splitSign hc with rfl | rfl | hc
  · decide
  · decide
  · rcases Option.or_eq_some_iff.mp hy with hy | ⟨_, hy⟩
    · exact isBlank_of_mem_named hy hc
    · exact isBlank_of_mem_decimal hy hc

/-! ## A number is a word among blanks -/

/-- A blank inside a trimmed text is still there after its digits became ASCII. -/
theorem isBlank_of_mem_asciiDigits {c : Char} {cs : List Char} (hc : c ∈ cs)
    (h : ∀ d ∈ cs.map asciiDigit, isBlank d = false) : isBlank c = false := by
  rw [Bool.eq_false_iff]
  intro hblank
  have hmem : c ∈ cs.map asciiDigit := List.mem_map.mpr ⟨c, hc, asciiDigit_of_isBlank hblank⟩
  exact absurd hblank (by simp [h c hmem])

theorem isWord_of_real? {cs : List Char} {x : Float} (h : real? cs = some x) :
    IsWord (trim isWhiteSpace cs) := by
  obtain ⟨ds, hds, hx⟩ := Option.bind_eq_some_iff.mp h
  constructor
  · intro hnil
    rw [hnil] at hds
    obtain rfl := Option.some.inj hds
    exact absurd hx (by simp [signedReal?, splitSign, named?, decimal?])
  · refine fun c hc => isBlank_of_mem_asciiDigits hc fun d hd => ?_
    rcases mem_joinGroups hds hd with rfl | hd
    · decide
    · exact isBlank_of_mem_signedReal hx hd

/-- A text that reads as a real is a word among blanks, which reads as the same real. -/
theorem exists_word_of_real? {cs : List Char} {x : Float} (h : real? cs = some x) :
    ∃ before w after, cs = before ++ w ++ after ∧ (∀ c ∈ before, isBlank c = true) ∧
      (∀ c ∈ after, isBlank c = true) ∧ IsWord w ∧ real? w = some x := by
  obtain ⟨before, after, hcs, hbefore, hafter⟩ := exists_eq_append_trim (p := isWhiteSpace) cs
  refine ⟨before, _, after, hcs, fun c hc => isBlank_of_isWhiteSpace (hbefore c hc),
    fun c hc => isBlank_of_isWhiteSpace (hafter c hc), isWord_of_real? h, ?_⟩
  rw [← h, real?, trim_trim, real?]

theorem readInteger_trim (cs : List Char) :
    readInteger (trim isWhiteSpace cs) = readInteger cs := by
  rw [readInteger, readInteger, trim_trim]

theorem isWord_of_integer? {cs : List Char} {n : Int} (h : integer? cs = some n) :
    IsWord (trim isWhiteSpace cs) := by
  have hread : readInteger cs = .ok n := by
    unfold integer? at h
    cases hr : readInteger cs with
    | error e => rw [hr] at h; cases h
    | ok m => rw [hr] at h; exact congrArg _ (Option.some.inj h)
  unfold readInteger at hread
  simp only at hread
  split at hread
  · cases hread
  next ds hds =>
    split at hread
    · cases hread
    split at hread
    · cases hread
    next hlong hshort =>
      simp only [Bool.or_eq_true, decide_eq_true_eq, not_or, not_lt] at hshort
      -- The run of digits and underscores is all that follows the sign.
      have hrun := List.takeWhile_prefix
        (l := (splitSign ((trim isWhiteSpace cs).map asciiDigit)).2)
        (fun c => c.isDigit || decide (c = '_'))
      have hall := hrun.eq_of_length_le hshort.2
      constructor
      · intro hnil
        rw [hnil] at hds
        obtain rfl := Option.some.inj hds
        exact hshort.1 rfl
      · refine fun c hc => isBlank_of_mem_asciiDigits hc fun d hd => ?_
        rcases mem_splitSign hd with rfl | rfl | hd
        · decide
        · decide
        · rw [← hall] at hd
          have hd := List.mem_takeWhile_imp hd
          simp only [Bool.or_eq_true, decide_eq_true_eq] at hd
          rcases hd with hd | rfl
          · exact isBlank_of_isDigit hd
          · decide

/-- A text that reads as an integer is a word among blanks, which reads as the same. -/
theorem exists_word_of_integer? {cs : List Char} {n : Int} (h : integer? cs = some n) :
    ∃ before w after, cs = before ++ w ++ after ∧ (∀ c ∈ before, isBlank c = true) ∧
      (∀ c ∈ after, isBlank c = true) ∧ IsWord w ∧ integer? w = some n := by
  obtain ⟨before, after, hcs, hbefore, hafter⟩ := exists_eq_append_trim (p := isWhiteSpace) cs
  refine ⟨before, _, after, hcs, fun c hc => isBlank_of_isWhiteSpace (hbefore c hc),
    fun c hc => isBlank_of_isWhiteSpace (hafter c hc), isWord_of_integer? h, ?_⟩
  rw [← h, integer?, readInteger_trim, integer?]

/-! ## Written digits are read back -/

theorem isDigit_of_mem_padded {width n : Nat} {d : Char} (h : d ∈ padded width n) :
    d.isDigit = true := by
  rw [padded, List.leftpad, List.mem_append] at h
  rcases h with h | h
  · obtain rfl := List.eq_of_mem_replicate h
    decide
  · exact Nat.isDigit_of_mem_toDigits (by decide) (by decide) h

theorem padded_ne_nil (width n : Nat) : padded width n ≠ [] := by
  intro h
  rw [padded, List.leftpad, List.append_eq_nil_iff] at h
  exact Nat.toDigits_ne_nil h.2

/-- Zeros in front do not change the value of digits. -/
theorem digitsValue_padded (width n : Nat) : digitsValue (padded width n) = n := by
  rw [digitsValue, padded, List.leftpad, Nat.ofDigitChars_append, Nat.ofDigitChars_replicate_zero,
    Nat.mul_zero, digits, Nat.ofDigitChars_ten_toDigits]

/-- Digits read as the integer they stand for, unless they are too many. -/
theorem readInteger_of_isDigit {ds : List Char} (hds : ∀ d ∈ ds, d.isDigit = true) (hne : ds ≠ []) :
    readInteger ds = if mostIntegerDigits < ds.length then .error (.tooManyDigits ds.length)
      else .ok (digitsValue ds : Int) := by
  have htrim : trim isWhiteSpace ds = ds := by
    refine trim_eq_self fun d hd => ?_
    rw [Bool.eq_false_iff]
    intro hspace
    exact absurd (isBlank_of_isWhiteSpace hspace) (by simp [isBlank_of_isDigit (hds d hd)])
  have hascii : ds.map asciiDigit = ds := by
    refine (List.map_congr_left fun d hd => asciiDigit_of_isDigit (hds d hd)).trans ?_
    exact List.map_id' ds
  have hrun : ds.takeWhile (fun c => c.isDigit || decide (c = '_')) = ds := by
    rw [List.takeWhile_eq_self_iff]
    intro d hd
    simp [hds d hd]
  unfold readInteger
  simp only [htrim, hascii, splitSign_of_isDigit hds, hrun, joinGroups_of_isDigit hds]
  split
  · rfl
  · rw [if_neg (by simpa using hne)]
    rfl

/-- **A padded number is read back**, if it has no more digits than an integer may have. -/
theorem integer?_padded {width n : Nat} (h : (padded width n).length ≤ mostIntegerDigits) :
    integer? (padded width n) = some (n : Int) := by
  rw [integer?, readInteger_of_isDigit (fun _ hd => isDigit_of_mem_padded hd)
    (padded_ne_nil width n), if_neg (Nat.not_lt.mpr h), digitsValue_padded]
  rfl

/-- Digits that are too many are no integer. -/
theorem integer?_eq_none {ds : List Char} (hds : ∀ d ∈ ds, d.isDigit = true) (hne : ds ≠ [])
    (h : mostIntegerDigits < ds.length) : integer? ds = none := by
  rw [integer?, readInteger_of_isDigit hds hne, if_pos h]
  rfl

end LinearProgram.Text
