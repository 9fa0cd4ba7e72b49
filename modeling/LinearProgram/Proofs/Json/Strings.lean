import Mathlib
import LinearProgram.Json.Parser
import LinearProgram.Json.Printer
/-!
# Printed strings are read back

A text is read back from the string that is printed for it (`string_printed`), unless a high
surrogate stands before a low one in it: their escapes are those of one character.  Such a text
is split and cannot be given in JSON, since no string that is read is split (`joined_of_string`).

## How the proof goes

What is printed is followed code point by code point.  Only the escape of a high surrogate looks at
what comes after it, and there it finds nothing but the number of the next code point
(`secondUnit?_printed`).  Reading is followed in the same way: if a high surrogate was read last,
then no low one can be read next, as they would have been read together (`Begun`).
-/
namespace LinearProgram

/-! ## Code points and their numbers -/

theorem CodePoint.ofNat_value (p : CodePoint) : ofNat p.value = p := by
  cases p with
  | char c =>
    have hvalid : c.toNat < 0xD800 ∨ (0xDFFF < c.toNat ∧ c.toNat < 0x110000) := c.valid
    have hplace : ¬ (c.toNat - firstSurrogate < 2048 ∧ firstSurrogate ≤ c.toNat) := by
      unfold firstSurrogate
      omega
    show ofNat c.toNat = .char c
    unfold ofNat
    split_ifs with hsmall hfirst
    · exact absurd ⟨hsmall, hfirst⟩ hplace
    · rw [Char.ofNat_toNat]
    · rw [Char.ofNat_toNat]
  | surrogate i =>
    have hplace : firstSurrogate + i.val - firstSurrogate = i.val := Nat.add_sub_cancel_left _ _
    show ofNat (firstSurrogate + i.val) = .surrogate i
    unfold ofNat
    rw [dif_pos (hplace.symm ▸ i.isLt), if_pos (Nat.le_add_right _ _)]
    simp only [hplace]

open Text.Encoding (isHigh isLow)

/-- Two code points that are read as one if they are given by their units. -/
def CodePoint.Pairs (p q : CodePoint) : Prop :=
  isHigh p.value = true ∧ isLow q.value = true

/-- No high surrogate stands before a low one. -/
def Text.IsJoined (t : Text) : Prop :=
  t.IsChain fun p q => ¬ p.Pairs q

theorem Text.Encoding.isHigh_iff {n : Nat} : isHigh n = true ↔ 0xD800 ≤ n ∧ n ≤ 0xDBFF := by
  rw [isHigh, Bool.and_eq_true, decide_eq_true_eq, decide_eq_true_eq]

theorem Text.Encoding.isLow_iff {n : Nat} : isLow n = true ↔ 0xDC00 ≤ n ∧ n ≤ 0xDFFF := by
  rw [isLow, Bool.and_eq_true, decide_eq_true_eq, decide_eq_true_eq]

namespace CodePoint

theorem toNat_char (c : Char) : c.toNat < 0xD800 ∨ 0xDFFF < c.toNat := by
  have hvalid : c.toNat < 0xD800 ∨ (0xDFFF < c.toNat ∧ c.toNat < 0x110000) := c.valid
  exact hvalid.imp_right And.left

theorem isHigh_char (c : Char) : ¬ isHigh (char c).value = true := by
  have hc := toNat_char c
  rw [Text.Encoding.isHigh_iff, value]
  omega

theorem isLow_char (c : Char) : ¬ isLow (char c).value = true := by
  have hc := toNat_char c
  rw [Text.Encoding.isLow_iff, value]
  omega

/-- A surrogate is the code point of no other number than its own. -/
theorem value_ofNat {n : Nat} {i : Fin 2048} (h : ofNat n = surrogate i) :
    (surrogate i).value = n := by
  unfold ofNat at h
  split_ifs at h with hsmall hfirst
  obtain rfl := CodePoint.surrogate.inj h
  exact Nat.add_sub_of_le hfirst

theorem isHigh_ofNat {n : Nat} (h : isHigh (ofNat n).value = true) : isHigh n = true := by
  cases hn : ofNat n with
  | char c => exact absurd (hn ▸ h) (isHigh_char c)
  | surrogate i => exact value_ofNat hn ▸ hn ▸ h

theorem isLow_ofNat {n : Nat} (h : isLow (ofNat n).value = true) : isLow n = true := by
  cases hn : ofNat n with
  | char c => exact absurd (hn ▸ h) (isLow_char c)
  | surrogate i => exact value_ofNat hn ▸ hn ▸ h

end CodePoint

namespace Json

open LinearProgram.Text (ofChars hexPadded)
open LinearProgram.Text.Encoding (pairPoint)

/-! ## Hexadecimal digits -/

theorem hexPadded_succ (k n : Nat) :
    hexPadded (k + 2) n = hexPadded (k + 1) (n / 16) ++ [(n % 16).digitChar] := by
  unfold hexPadded
  by_cases hn : n < 16
  · rw [Nat.toDigits_of_lt_base hn, Nat.div_eq_of_lt hn, Nat.toDigits_zero, Nat.mod_eq_of_lt hn]
    show List.replicate (k + 1) '0' ++ [n.digitChar] =
      List.replicate k '0' ++ ['0'] ++ [n.digitChar]
    rw [List.replicate_succ']
  · rw [Nat.toDigits_of_base_le (by decide) (not_lt.mp hn), List.leftpad, List.leftpad,
      List.length_append, List.append_assoc]
    congr 2
    exact Nat.add_sub_add_right (k + 1) 1 _

theorem hexPadded_four {n : Nat} (hn : n < 0x10000) : hexPadded 4 n =
    [(n / 4096).digitChar, (n / 256 % 16).digitChar, (n / 16 % 16).digitChar,
      (n % 16).digitChar] := by
  have hlead : n / 4096 < 16 := by omega
  have hsecond : n / 16 / 16 = n / 256 := Nat.div_div_eq_div_mul n 16 16
  have hfirst : n / 256 / 16 = n / 4096 := Nat.div_div_eq_div_mul n 256 16
  rw [hexPadded_succ, hexPadded_succ, hexPadded_succ, hsecond, hfirst, hexPadded,
    Nat.toDigits_of_lt_base hlead]
  rfl

theorem hexValue?_digitChar : ∀ d < 16, hexValue? (.char d.digitChar) = some d := by
  decide

/-- A unit is read back. -/
theorem hexUnit?_hexPadded {n : Nat} (hn : n < 0x10000) (p : CodePoint) (t : Text) :
    hexUnit? (ofChars (hexPadded 4 n) ++ p :: t) = some (n, p :: t) := by
  rw [hexPadded_four hn]
  show (do
    let m := ((← hexValue? (.char (n / 4096).digitChar)) * 16 +
      (← hexValue? (.char (n / 256 % 16).digitChar))) * 256 +
      (← hexValue? (.char (n / 16 % 16).digitChar)) * 16 + (← hexValue? (.char (n % 16).digitChar))
    return (m, p :: t) : Option (Nat × Text)) = some (n, p :: t)
  rw [hexValue?_digitChar _ (by omega), hexValue?_digitChar _ (by omega),
    hexValue?_digitChar _ (by omega), hexValue?_digitChar _ (by omega)]
  show some ((n / 4096 * 16 + n / 256 % 16) * 256 + n / 16 % 16 * 16 + n % 16, p :: t) = _
  congr 2
  omega

/-! ## Escapes -/

/-- A code point is printed by its number, after a backslash, or as it stands. -/
theorem escape_cases (p : CodePoint) :
    (p.value < 0x10000 ∧ escape p = escapeUnit p.value) ∨
    (∃ c, p = .char c ∧ (c = '"' ∨ c = '\\') ∧ escape p = ['\\', c]) ∨
    (∃ c, p = .char c ∧ c ≠ '"' ∧ c ≠ '\\' ∧ ¬ c.toNat < 0x20 ∧ escape p = [c]) := by
  cases p with
  | surrogate i =>
    have hi := i.isLt
    refine .inl ⟨?_, rfl⟩
    show 0xD800 + i.val < 0x10000
    omega
  | char c =>
    by_cases hquote : c = '"' ∨ c = '\\'
    · refine .inr (.inl ⟨c, rfl, hquote, ?_⟩)
      rw [escape, if_pos (by simpa using hquote)]
    · obtain ⟨hquote', hslash⟩ := not_or.mp hquote
      by_cases hcontrol : c.toNat < 0x20
      · refine .inl ⟨?_, ?_⟩
        · show c.toNat < 0x10000
          omega
        · rw [escape, if_neg (by simpa using hquote), if_pos hcontrol]
          rfl
      · refine .inr (.inr ⟨c, rfl, hquote', hslash, hcontrol, ?_⟩)
        rw [escape, if_neg (by simpa using hquote), if_neg hcontrol]

/-- What is printed for a text in a string, up to and with the closing quote. -/
def printed (t rest : Text) : Text :=
  ofChars (t.flatMap escape) ++ .char '"' :: rest

theorem printed_cons (p : CodePoint) (t rest : Text) :
    printed (p :: t) rest = ofChars (escape p) ++ printed t rest := by
  simp [printed, ofChars]

theorem exists_printed (t rest : Text) : ∃ q more, printed t rest = q :: more :=
  List.exists_cons_of_ne_nil (List.append_ne_nil_of_right_ne_nil _ (List.cons_ne_nil _ _))

theorem secondUnit?_escape (more : Text) : secondUnit? (.char '\\' :: .char 'u' :: more) =
    if more.length < 5 then .ok none
    else match hexUnit? more with
      | some r => .ok (some r)
      | none => .error (.malformed .badUnit (.char 'u' :: more)) :=
  rfl

/-- After an escape one finds the number of the next code point, or no escape by a number. -/
theorem secondUnit?_printed (t rest : Text) : ∃ unit?, secondUnit? (printed t rest) = .ok unit? ∧
    ∀ u ∈ unit?, ∃ q ∈ t.head?, u.1 = q.value := by
  have hnone : ∀ more : Text, (∀ tail, more ≠ .char '\\' :: .char 'u' :: tail) →
      secondUnit? more = .ok none := by
    intro more hmore
    unfold secondUnit?
    split
    · exact absurd rfl (hmore _)
    · rfl
  cases t with
  | nil => exact ⟨none, rfl, fun u hu => by cases hu⟩
  | cons q t =>
    rw [printed_cons]
    obtain ⟨hvalue, hq⟩ | ⟨c, rfl, hc, hq⟩ | ⟨c, rfl, _, hslash, _, hq⟩ := escape_cases q
    · obtain ⟨p, more, hmore⟩ := exists_printed t rest
      refine ⟨some (q.value, p :: more), ?_, ?_⟩
      · rw [hq, hmore]
        show secondUnit? (.char '\\' :: .char 'u' ::
          (ofChars (hexPadded 4 q.value) ++ p :: more)) = _
        have hlength : ¬ (ofChars (hexPadded 4 q.value) ++ p :: more).length < 5 := by
          rw [hexPadded_four hvalue]
          simp [ofChars]
        rw [secondUnit?_escape, if_neg hlength, hexUnit?_hexPadded hvalue]
      · rintro u ⟨⟩
        exact ⟨q, rfl, rfl⟩
    · refine ⟨none, hnone _ ?_, fun u hu => by cases hu⟩
      rw [hq]
      rcases hc with rfl | rfl <;> simp [ofChars]
    · refine ⟨none, hnone _ ?_, fun u hu => by cases hu⟩
      rw [hq]
      simp [ofChars, hslash]

/-- The escape of a code point is read as this code point, unless it is one half of a pair. -/
theorem unicodeEscape_printed {p : CodePoint} (hp : p.value < 0x10000) {t : Text}
    (hpair : ∀ q ∈ t.head?, ¬ p.Pairs q) (rest : Text) :
    unicodeEscape (ofChars (hexPadded 4 p.value) ++ printed t rest) = .ok (p, printed t rest) := by
  obtain ⟨q, more, hmore⟩ := exists_printed t rest
  obtain ⟨unit?, hsecond, hunit⟩ := secondUnit?_printed t rest
  unfold unicodeEscape
  rw [hmore, hexUnit?_hexPadded hp, ← hmore]
  simp only [hsecond, p.ofNat_value]
  cases hhigh : isHigh p.value with
  | false => rfl
  | true =>
    rw [if_pos rfl]
    cases unit? with
    | none => rfl
    | some u =>
      obtain ⟨q, hq, hu⟩ := hunit u rfl
      have hlow : ¬ isLow u.1 = true := fun hlow => hpair q hq ⟨hhigh, hu ▸ hlow⟩
      show (if isLow u.1 = true then _ else _) = _
      rw [if_neg hlow]

/-! ## Strings -/

theorem stringBody_unit (opening : Text) (fuel : Nat) (done more : Text) :
    stringBody opening (fuel + 1) done (.char '\\' :: .char 'u' :: more) =
      match unicodeEscape more with
      | .error e => .error e
      | .ok r => stringBody opening fuel (r.1 :: done) r.2 := by
  conv_lhs => unfold stringBody
  rw [if_neg (by decide), if_pos rfl]
  simp only
  cases unicodeEscape more <;> rfl

theorem stringBody_plain (opening : Text) (fuel : Nat) (done : Text) {p : CodePoint} (t : Text)
    (hquote : p ≠ .char '"') (hslash : p ≠ .char '\\') (hcontrol : ¬ p.value < 0x20) :
    stringBody opening (fuel + 1) done (p :: t) = stringBody opening fuel (p :: done) t := by
  conv_lhs => unfold stringBody
  rw [if_neg hquote, if_neg hslash, if_neg hcontrol]

/-- **One code point of a string** is read. -/
theorem stringBody_escape (opening : Text) (fuel : Nat) (done : Text) {p : CodePoint} {t : Text}
    (hpair : ∀ q ∈ t.head?, ¬ p.Pairs q) (rest : Text) :
    stringBody opening (fuel + 1) done (printed (p :: t) rest) =
      stringBody opening fuel (p :: done) (printed t rest) := by
  rw [printed_cons]
  obtain ⟨hvalue, hp⟩ | ⟨c, rfl, hc, hp⟩ | ⟨c, rfl, hquote, hslash, hcontrol, hp⟩ := escape_cases p
  · rw [hp]
    show stringBody opening (fuel + 1) done
      (.char '\\' :: .char 'u' :: (ofChars (hexPadded 4 p.value) ++ printed t rest)) = _
    rw [stringBody_unit, unicodeEscape_printed hvalue hpair]
  · rw [hp]
    rcases hc with rfl | rfl <;> rfl
  · rw [hp]
    exact stringBody_plain opening fuel done _ (fun h => hquote (CodePoint.char.inj h))
      (fun h => hslash (CodePoint.char.inj h)) hcontrol

theorem stringBody_printed (opening rest : Text) : ∀ {t : Text} {fuel : Nat} (done : Text),
    t.IsJoined → t.length < fuel →
      stringBody opening fuel done (printed t rest) = .ok (done.reverse ++ t, rest)
  | [], fuel + 1, done, _, _ => by
    show Except.ok (done.reverse, rest) = _
    rw [List.append_nil]
  | p :: t, fuel + 1, done, hjoined, hfuel => by
    obtain ⟨hpair, hrest⟩ := List.isChain_cons.mp hjoined
    rw [stringBody_escape opening fuel done hpair rest,
      stringBody_printed opening rest (p :: done) hrest (Nat.lt_of_succ_lt_succ hfuel),
      List.reverse_cons, List.append_assoc]
    rfl

theorem escape_ne_nil (p : CodePoint) : escape p ≠ [] := by
  obtain ⟨_, hp⟩ | ⟨c, _, _, hp⟩ | ⟨c, _, _, _, _, hp⟩ := escape_cases p <;>
    exact hp ▸ List.cons_ne_nil _ _

theorem length_le_printed (t rest : Text) : t.length ≤ (printed t rest).length := by
  induction t with
  | nil => exact Nat.zero_le _
  | cons p t ih =>
    have hp : 0 < (escape p).length := List.length_pos_of_ne_nil (escape_ne_nil p)
    have hchars : (ofChars (escape p)).length = (escape p).length := List.length_map _
    rw [printed_cons, List.length_append, hchars, List.length_cons]
    omega

/-- **A text is read back from its string.** -/
theorem string_printed {t : Text} (ht : t.IsJoined) (rest : Text) :
    string (printed t rest) = .ok (t, rest) :=
  stringBody_printed _ rest [] ht (Nat.lt_succ_of_le (length_le_printed t rest))

/-! ## No string is split -/

/-- An escape at the front is that of no low surrogate. -/
def NoLow (t : Text) : Prop :=
  ∀ more u, t = .char '\\' :: .char 'u' :: more → hexUnit? more = some u → ¬ isLow u.1 = true

theorem suffix_of_hexUnit? {t : Text} {u : Nat × Text} (h : hexUnit? t = some u) :
    u.2 <:+ t ∧ 5 ≤ t.length := by
  unfold hexUnit? at h
  split at h
  · next a b c d p t =>
    simp only [Option.bind_eq_bind, Option.bind_eq_some_iff] at h
    obtain ⟨_, _, _, _, _, _, _, _, heq⟩ := h
    obtain rfl := Option.some.inj heq
    exact ⟨⟨[a, b, c, d], rfl⟩, by simp⟩
  · cases h

theorem suffix_of_secondUnit? {t : Text} {u : Nat × Text} (h : secondUnit? t = .ok (some u)) :
    u.2 <:+ t := by
  unfold secondUnit? at h
  split at h
  · next more =>
    by_cases hshort : more.length < 5
    · rw [if_pos hshort] at h
      cases h
    · rw [if_neg hshort] at h
      cases hunit : hexUnit? more with
      | none => simp [hunit] at h
      | some v =>
        rw [hunit] at h
        obtain rfl := Option.some.inj (Except.ok.inj h)
        exact (suffix_of_hexUnit? hunit).1.trans ⟨[.char '\\', .char 'u'], rfl⟩
  · cases h

/-- If the second unit of a pair was looked for and not found, there is none. -/
theorem noLow_of_secondUnit? {t : Text} {unit? : Option (Nat × Text)}
    (h : secondUnit? t = .ok unit?) (hlow : ∀ u ∈ unit?, ¬ isLow u.1 = true) : NoLow t := by
  rintro more u rfl hu
  rw [secondUnit?_escape, if_neg (not_lt.mpr (suffix_of_hexUnit? hu).2), hu] at h
  exact hlow u (Except.ok.inj h ▸ rfl)

/-- What an escape by units gives: a low surrogate only if this is its unit, and a high one only
if no low one follows. -/
structure Escaped (t : Text) (q : CodePoint) (rest : Text) : Prop where
  suffix : rest <:+ t
  low : isLow q.value = true → ∃ u, hexUnit? t = some u ∧ isLow u.1 = true
  high : isHigh q.value = true → NoLow rest

theorem escaped_of_unicodeEscape {t rest : Text} {q : CodePoint}
    (h : unicodeEscape t = .ok (q, rest)) : Escaped t q rest := by
  unfold unicodeEscape at h
  cases hunit : hexUnit? t with
  | none => simp [hunit] at h
  | some u =>
    obtain ⟨n, after⟩ := u
    obtain ⟨hsuffix, _⟩ := suffix_of_hexUnit? hunit
    rw [hunit] at h
    simp only at h
    -- The code point of the unit itself is read unless a low surrogate follows.
    have hsingle : (isHigh n = true → NoLow after) → Escaped t (.ofNat n) after := fun hhigh =>
      ⟨hsuffix, fun hlow => ⟨_, hunit, CodePoint.isLow_ofNat hlow⟩,
        fun hq => hhigh (CodePoint.isHigh_ofNat hq)⟩
    by_cases hhigh : isHigh n = true
    · rw [if_pos hhigh] at h
      cases hsecond : secondUnit? after with
      | error e => simp [hsecond] at h
      | ok unit? =>
        rw [hsecond] at h
        cases unit? with
        | none =>
          obtain ⟨rfl, rfl⟩ := Prod.mk.inj (Except.ok.inj h)
          exact hsingle fun _ => noLow_of_secondUnit? hsecond fun u hu => by cases hu
        | some u =>
          simp only at h
          split_ifs at h with hlow
          · obtain ⟨rfl, rfl⟩ := Prod.mk.inj (Except.ok.inj h)
            refine ⟨(suffix_of_secondUnit? hsecond).trans hsuffix, fun hq => ?_, fun hq => ?_⟩
            · have hrange := Text.Encoding.isLow_iff.mp (CodePoint.isLow_ofNat hq)
              omega
            · have hrange := Text.Encoding.isHigh_iff.mp (CodePoint.isHigh_ofNat hq)
              omega
          · obtain ⟨rfl, rfl⟩ := Prod.mk.inj (Except.ok.inj h)
            refine hsingle fun _ => noLow_of_secondUnit? hsecond ?_
            rintro u ⟨⟩
            exact hlow
    · rw [if_neg hhigh] at h
      obtain ⟨rfl, rfl⟩ := Prod.mk.inj (Except.ok.inj h)
      exact hsingle fun hn => absurd hn hhigh

theorem isWellFormed_of_suffix {s t : Text} (h : s <:+ t) (ht : t.isWellFormed = true) :
    s.isWellFormed = true := by
  simp only [Text.isWellFormed, Bool.not_eq_true', List.any_eq_false] at ht ⊢
  exact fun p hp => ht p (h.mem hp)

theorem exists_char_of_mem {t : Text} (ht : t.isWellFormed = true) {p : CodePoint} (hp : p ∈ t) :
    ∃ c, p = .char c := by
  simp only [Text.isWellFormed, Bool.not_eq_true', List.any_eq_false] at ht
  cases p with
  | char c => exact ⟨c, rfl⟩
  | surrogate i => exact absurd rfl (ht _ hp)

/-- A string that was read in part: what was read, in reverse, and what is left. -/
structure Begun (done t : Text) : Prop where
  joined : done.IsChain fun q p => ¬ p.Pairs q
  pending : ∀ p ∈ done.head?, isHigh p.value = true → NoLow t
  wellFormed : t.isWellFormed = true

theorem Begun.char {done t rest : Text} (h : Begun done t) (hrest : rest <:+ t) (c : Char) :
    Begun (.char c :: done) rest where
  joined := List.isChain_cons.mpr
    ⟨fun _ _ hpair => CodePoint.isLow_char c hpair.2, h.joined⟩
  pending := by
    rintro p ⟨⟩ hhigh
    exact absurd hhigh (CodePoint.isHigh_char c)
  wellFormed := isWellFormed_of_suffix hrest h.wellFormed

theorem Begun.unit {done more rest : Text} {q : CodePoint}
    (h : Begun done (.char '\\' :: .char 'u' :: more)) (hq : Escaped more q rest) :
    Begun (q :: done) rest where
  joined := by
    refine List.isChain_cons.mpr ⟨fun p hp hpair => ?_, h.joined⟩
    obtain ⟨u, hu, hlow⟩ := hq.low hpair.2
    exact h.pending p hp hpair.1 more u rfl hu hlow
  pending := by
    rintro p ⟨⟩ hhigh
    exact hq.high hhigh
  wellFormed := isWellFormed_of_suffix
    (hq.suffix.trans ⟨[.char '\\', .char 'u'], rfl⟩) h.wellFormed

/-- **A step of reading a string**: it is at its end, or one more code point is read. -/
theorem stringBody_cases {opening done t u rest : Text} {fuel : Nat}
    (h : stringBody opening (fuel + 1) done t = .ok (u, rest)) (hbegun : Begun done t) :
    (t = .char '"' :: rest ∧ u = done.reverse) ∨
      ∃ q more, Begun (q :: done) more ∧
        stringBody opening fuel (q :: done) more = .ok (u, rest) := by
  cases t with
  | nil => cases h
  | cons p t =>
    have hsuffix : t <:+ p :: t := List.suffix_cons p t
    by_cases hquote : p = .char '"'
    · subst hquote
      obtain ⟨rfl, rfl⟩ := Prod.mk.inj (Except.ok.inj h)
      exact .inl ⟨rfl, rfl⟩
    by_cases hslash : p = .char '\\'
    · subst hslash
      unfold stringBody at h
      rw [if_neg hquote, if_pos rfl] at h
      split at h
      · next more =>
        cases hread : unicodeEscape more with
        | error e => simp [hread] at h
        | ok r =>
          rw [hread] at h
          exact .inr ⟨r.1, r.2, hbegun.unit (escaped_of_unicodeEscape hread), h⟩
      · next e rest' _ =>
        cases hread : escaped? e with
        | none => simp [hread] at h
        | some c =>
          rw [hread] at h
          exact .inr ⟨.char c, rest', hbegun.char ((List.suffix_cons _ _).trans hsuffix) c, h⟩
      · cases h
    by_cases hcontrol : p.value < 0x20
    · unfold stringBody at h
      rw [if_neg hquote, if_neg hslash, if_pos hcontrol] at h
      cases h
    · rw [stringBody_plain opening fuel done t hquote hslash hcontrol] at h
      obtain ⟨c, rfl⟩ := exists_char_of_mem hbegun.wellFormed List.mem_cons_self
      exact .inr ⟨.char c, t, hbegun.char hsuffix c, h⟩

theorem joined_of_stringBody {opening u rest : Text} : ∀ {fuel : Nat} {done t : Text},
    stringBody opening fuel done t = .ok (u, rest) → Begun done t →
      u.IsJoined ∧ rest.isWellFormed = true
  | 0, _, _, h, _ => by cases h
  | fuel + 1, done, t, h, hbegun => by
    obtain ⟨rfl, rfl⟩ | ⟨q, more, hmore, hread⟩ := stringBody_cases h hbegun
    · exact ⟨List.isChain_reverse.mpr hbegun.joined,
        isWellFormed_of_suffix (List.suffix_cons _ _) hbegun.wellFormed⟩
    · exact joined_of_stringBody hread hmore

/-- **No string that is read is split.** -/
theorem joined_of_string {t u rest : Text} (h : string t = .ok (u, rest))
    (ht : t.isWellFormed = true) : u.IsJoined ∧ rest.isWellFormed = true :=
  joined_of_stringBody h ⟨List.isChain_nil, (fun _ hp => by cases hp), ht⟩

end Json

end LinearProgram
