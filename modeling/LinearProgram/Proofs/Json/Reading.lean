import Mathlib
import LinearProgram.Proofs.Json.RoundTrip
/-!
# What is read fits

Every value that is read from a text of characters `Fits`: its keys are different, its texts are
not split, its integers are short enough and it is not nested too deep (`fits_of_read`).  So what
was read once is read again, and alike, from its print (`read_print_of_read`).

## How the proof goes

One follows the parser, call by call.  What is left of a text of characters is one too, as it is
the end of it.
-/
namespace LinearProgram.Json

open LinearProgram.Decimal (digitCount digits)
open LinearProgram.Text (ofChars ofString digitsValue mostIntegerDigits)

/-! ## What is read fits -/

theorem fitItems_iff {room : Nat} {js : List Json} :
    FitItems room js ↔ ∀ j ∈ js, j.Fits room := by
  induction js with
  | nil => simp [FitItems]
  | cons j js ih => rw [FitItems, ih, List.forall_mem_cons]

theorem fitFields_iff {room : Nat} {fs : List (Text × Json)} :
    FitFields room fs ↔ ∀ f ∈ fs, f.1.IsJoined ∧ f.2.Fits room := by
  induction fs with
  | nil => simp [FitFields]
  | cons f fs ih => rw [FitFields, ih, List.forall_mem_cons, and_assoc]

theorem mem_setField {f : Text × Json} {k : Text} {j : Json} {fs : List (Text × Json)}
    (h : f ∈ setField k j fs) : f = (k, j) ∨ f ∈ fs := by
  induction fs with
  | nil => exact .inl (List.mem_singleton.mp h)
  | cons g gs ih =>
    rw [setField] at h
    split_ifs at h
    · exact (List.mem_cons.mp h).imp_right (List.mem_cons_of_mem g)
    · rcases List.mem_cons.mp h with rfl | h
      · exact .inr List.mem_cons_self
      · exact (ih h).imp_right (List.mem_cons_of_mem g)

theorem keys_setField {k : Text} (j : Json) : ∀ {fs : List (Text × Json)},
    k ∈ fs.map (·.1) → (setField k j fs).map (·.1) = fs.map (·.1)
  | [], h => absurd h List.not_mem_nil
  | f :: fs, h => by
    rw [setField]
    split_ifs with hf
    · rw [List.map_cons, List.map_cons, hf]
    · have hmem : k ∈ fs.map (·.1) := (List.mem_cons.mp h).resolve_left (Ne.symm hf)
      rw [List.map_cons, List.map_cons, keys_setField j hmem]

theorem nodup_setField {k : Text} {j : Json} {fs : List (Text × Json)}
    (h : (fs.map (·.1)).Nodup) : ((setField k j fs).map (·.1)).Nodup := by
  by_cases hk : k ∈ fs.map (·.1)
  · rwa [keys_setField j hk]
  · rw [setField_of_notMem hk, List.map_append, List.map_singleton, ← List.concat_eq_append]
    exact List.Nodup.concat hk h

/-- The fields of an object are some of those that were read, and their keys are different. -/
theorem uniqueFields_spec (fs : List (Text × Json)) :
    ((uniqueFields fs).map (·.1)).Nodup ∧ ∀ f ∈ uniqueFields fs, f ∈ fs := by
  have hfold : ∀ gs done : List (Text × Json), (done.map (·.1)).Nodup →
      ((gs.foldl (fun fs f => setField f.1 f.2 fs) done).map (·.1)).Nodup ∧
        ∀ f ∈ gs.foldl (fun fs f => setField f.1 f.2 fs) done, f ∈ done ∨ f ∈ gs := by
    intro gs
    induction gs with
    | nil => exact fun done hdone => ⟨hdone, fun f hf => .inl hf⟩
    | cons g gs ih =>
      intro done hdone
      obtain ⟨hnodup, hmem⟩ := ih (setField g.1 g.2 done) (nodup_setField hdone)
      refine ⟨hnodup, fun f hf => ?_⟩
      rcases hmem f hf with hf | hf
      · rcases mem_setField hf with rfl | hf
        · exact .inr List.mem_cons_self
        · exact .inl hf
      · exact .inr (List.mem_cons_of_mem g hf)
  obtain ⟨hnodup, hmem⟩ := hfold fs [] List.nodup_nil
  exact ⟨hnodup, fun f hf => (hmem f hf).resolve_left List.not_mem_nil⟩

/-! ## Numbers and words -/

theorem digitsValue_lt {ds : List Char} (hds : ∀ d ∈ ds, d.isDigit = true) :
    digitsValue ds < 10 ^ ds.length := by
  have hbound : ∀ n, Nat.ofDigitChars 10 ds n < (n + 1) * 10 ^ ds.length := by
    induction ds with
    | nil => exact fun n => by simp
    | cons d ds ih =>
      intro n
      obtain ⟨hlow, hhigh⟩ := Text.toNat_of_isDigit (hds d List.mem_cons_self)
      have hzero : '0'.toNat = 48 := rfl
      rw [Nat.ofDigitChars_cons, List.length_cons, Nat.pow_succ', ← Nat.mul_assoc]
      refine (ih (fun c hc => hds c (List.mem_cons_of_mem d hc)) _).trans_le ?_
      exact Nat.mul_le_mul_right _ (by omega)
  have hlt := hbound 0
  rwa [Nat.zero_add, Nat.one_mul] at hlt

theorem digitCount_digitsValue_le {ds : List Char} (hds : ∀ d ∈ ds, d.isDigit = true)
    (hne : ds ≠ []) : digitCount (digitsValue ds) ≤ ds.length :=
  (Decimal.digitCount_le_iff (List.length_pos_of_ne_nil hne)).mpr (digitsValue_lt hds)

theorem isDigit_leadingDigits (t : Text) : ∀ d ∈ leadingDigits t, d.isDigit = true := by
  intro d hd
  obtain ⟨p, hp, rfl⟩ := List.mem_map.mp hd
  have hdigit := List.mem_takeWhile_imp hp
  cases p with
  | char c => exact hdigit
  | surrogate i => cases hdigit

theorem wholeDigits_spec (t : Text) :
    (∀ d ∈ (wholeDigits t).1, d.isDigit = true) ∧ (wholeDigits t).2 <:+ t := by
  unfold wholeDigits
  split
  · next more => exact ⟨isDigit_replicate_zero 1, List.suffix_cons _ _⟩
  · exact ⟨isDigit_leadingDigits t, List.dropWhile_suffix _⟩

theorem suffix_fraction (t : Text) : (fraction t).2 <:+ t := by
  unfold fraction
  split
  · split_ifs
    · exact List.suffix_rfl
    · exact (List.dropWhile_suffix _).trans (List.suffix_cons _ _)
  · exact List.suffix_rfl

theorem suffix_sign (t : Text) : (sign t).2 <:+ t := by
  unfold sign
  split
  · exact List.suffix_cons _ _
  · exact List.suffix_cons _ _
  · exact List.suffix_rfl

theorem suffix_exponent (t : Text) : (exponent t).2 <:+ t := by
  cases t with
  | nil => exact List.suffix_rfl
  | cons e more =>
    have hafter : afterDigits (sign more).2 <:+ e :: more :=
      (List.dropWhile_suffix _).trans ((suffix_sign more).trans (List.suffix_cons _ _))
    by_cases he : (e = .char 'e' || e = .char 'E') = true
    · by_cases hempty : (leadingDigits (sign more).2).isEmpty = true
      · simp only [exponent, he, hempty, if_true, List.suffix_rfl]
      · simp only [exponent, he, hempty, if_true]
        exact hafter
    · simp only [exponent, he]
      exact List.suffix_rfl

theorem fits_of_number {start t rest : Text} {negative : Bool} {j : Json}
    (h : number start negative t = .ok (j, rest)) : (∀ room, j.Fits room) ∧ rest <:+ t := by
  obtain ⟨hdigits, hwhole⟩ := wholeDigits_spec t
  have hsuffix : (exponent (fraction (wholeDigits t).2).2).2 <:+ t :=
    (suffix_exponent _).trans ((suffix_fraction _).trans hwhole)
  unfold number at h
  simp only at h
  split at h
  · cases h
  next hempty =>
    split at h
    next =>
      split at h
      · cases h
      next hshort =>
        obtain ⟨rfl, rfl⟩ := Prod.mk.inj (Except.ok.inj h)
        refine ⟨fun room => ?_, hsuffix⟩
        have habs : ∀ n : Nat, (if negative then -(n : Int) else n).natAbs = n := by
          intro n
          cases negative <;> simp
        show digitCount (if negative then -(digitsValue _ : Int) else digitsValue _).natAbs ≤ _
        rw [habs]
        exact (digitCount_digitsValue_le hdigits (by simpa using hempty)).trans
          (not_lt.mp hshort)
    next =>
      obtain ⟨rfl, rfl⟩ := Prod.mk.inj (Except.ok.inj h)
      exact ⟨fun room => trivial, hsuffix⟩

theorem suffix_of_afterWord? : ∀ {w : List Char} {t rest : Text},
    afterWord? w t = some rest → rest <:+ t
  | [], t, rest, h => by
    obtain rfl := Option.some.inj h
    exact List.suffix_rfl
  | _ :: _, [], _, h => by cases h
  | _ :: _, .surrogate _ :: _, _, h => by cases h
  | c :: w, .char d :: t, rest, h => by
    unfold afterWord? at h
    split_ifs at h
    exact (suffix_of_afterWord? h).trans (List.suffix_cons _ _)

theorem fits_of_literal? {t rest : Text} {j : Json} (h : literal? t = some (j, rest)) :
    (∀ room, j.Fits room) ∧ rest <:+ t := by
  obtain ⟨l, hl, hword⟩ := List.exists_of_findSome?_eq_some h
  obtain ⟨rest', hrest, heq⟩ := Option.map_eq_some_iff.mp hword
  obtain ⟨rfl, rfl⟩ := Prod.mk.inj heq
  refine ⟨fun room => ?_, suffix_of_afterWord? hrest⟩
  simp only [literals, List.mem_cons, List.not_mem_nil, or_false] at hl
  rcases hl with rfl | rfl | rfl | rfl | rfl | rfl <;> trivial

/-! ## Values -/

theorem exists_of_map_ok {α β : Type} {x : Parsed α} {f : α × Text → β × Text} {r : β × Text}
    (h : x.map f = .ok r) : ∃ a, x = .ok a ∧ f a = r := by
  cases x with
  | error e => cases h
  | ok a => exact ⟨a, rfl, Except.ok.inj h⟩

theorem isWellFormed_skipSpace {t : Text} (ht : t.isWellFormed = true) :
    (skipSpace t).isWellFormed = true :=
  isWellFormed_of_suffix (List.dropWhile_suffix _) ht

theorem isWellFormed_tail {p : CodePoint} {t : Text} (ht : Text.isWellFormed (p :: t) = true) :
    t.isWellFormed = true :=
  isWellFormed_of_suffix (List.suffix_cons p t) ht

mutual

/-- **What is read from a text of characters fits**, and what is left is such a text. -/
theorem fits_of_value : ∀ {fuel room : Nat} {t rest : Text} {j : Json},
    value room fuel t = .ok (j, rest) → t.isWellFormed = true →
      j.Fits room ∧ rest.isWellFormed = true
  | fuel + 1, room, t, rest, j, h, ht => by
    unfold value at h
    split at h
    next t =>
      obtain ⟨⟨u, more⟩, hread, heq⟩ := exists_of_map_ok h
      obtain ⟨rfl, rfl⟩ := Prod.mk.inj heq
      exact joined_of_string hread (isWellFormed_tail ht)
    next t =>
      have hskip := isWellFormed_skipSpace (isWellFormed_tail ht)
      split at h
      · cases h
      next hroom =>
      split at h
      next after hempty =>
        obtain ⟨rfl, rfl⟩ := Prod.mk.inj (Except.ok.inj h)
        exact ⟨⟨hroom, trivial⟩, isWellFormed_tail (hempty ▸ hskip)⟩
      next =>
        obtain ⟨⟨js, more⟩, hread, heq⟩ := exists_of_map_ok h
        obtain ⟨rfl, rfl⟩ := Prod.mk.inj heq
        obtain ⟨hjs, hrest⟩ := fitItems_of_items hread hskip
        exact ⟨⟨hroom, hjs⟩, hrest⟩
    next t =>
      have hskip := isWellFormed_skipSpace (isWellFormed_tail ht)
      split at h
      · cases h
      next hroom =>
      split at h
      next after hempty =>
        obtain ⟨rfl, rfl⟩ := Prod.mk.inj (Except.ok.inj h)
        exact ⟨⟨hroom, List.nodup_nil, trivial⟩, isWellFormed_tail (hempty ▸ hskip)⟩
      next =>
        obtain ⟨⟨fs, more⟩, hread, heq⟩ := exists_of_map_ok h
        obtain ⟨rfl, rfl⟩ := Prod.mk.inj heq
        obtain ⟨hfs, hrest⟩ := fitFields_of_members hread hskip
        obtain ⟨hnodup, hmem⟩ := uniqueFields_spec fs
        exact ⟨⟨hroom, hnodup, fitFields_iff.mpr fun f hf => fitFields_iff.mp hfs f (hmem f hf)⟩,
          hrest⟩
    next =>
      split at h
      next r hword =>
        obtain rfl := Except.ok.inj h
        obtain ⟨hfits, hsuffix⟩ := fits_of_literal? hword
        exact ⟨hfits room, isWellFormed_of_suffix hsuffix ht⟩
      next =>
        split at h
        · obtain ⟨hfits, hsuffix⟩ := fits_of_number h
          exact ⟨hfits room, isWellFormed_of_suffix (hsuffix.trans (List.suffix_cons _ _)) ht⟩
        · obtain ⟨hfits, hsuffix⟩ := fits_of_number h
          exact ⟨hfits room, isWellFormed_of_suffix hsuffix ht⟩

theorem fitItems_of_items : ∀ {fuel room : Nat} {t rest : Text} {js : List Json},
    items room fuel t = .ok (js, rest) → t.isWellFormed = true →
      FitItems room js ∧ rest.isWellFormed = true
  | fuel + 1, room, t, rest, js, h, ht => by
    unfold items at h
    split at h
    · cases h
    next j after hread =>
    obtain ⟨hj, hafter⟩ := fits_of_value hread ht
    have hskip := isWellFormed_skipSpace hafter
    split at h
    next more hmore =>
      rw [hmore] at hskip
      obtain ⟨⟨js, more⟩, hread, heq⟩ := exists_of_map_ok h
      obtain ⟨rfl, rfl⟩ := Prod.mk.inj heq
      obtain ⟨hjs, hrest⟩ :=
        fitItems_of_items hread (isWellFormed_skipSpace (isWellFormed_tail hskip))
      exact ⟨⟨hj, hjs⟩, hrest⟩
    next more hmore =>
      obtain ⟨rfl, rfl⟩ := Prod.mk.inj (Except.ok.inj h)
      exact ⟨⟨hj, trivial⟩, isWellFormed_tail (hmore ▸ hskip)⟩
    · cases h

theorem fitFields_of_members : ∀ {fuel room : Nat} {t rest : Text} {fs : List (Text × Json)},
    members room fuel t = .ok (fs, rest) → t.isWellFormed = true →
      FitFields room fs ∧ rest.isWellFormed = true
  | fuel + 1, room, t, rest, fs, h, ht => by
    unfold members at h
    split at h
    next t =>
      split at h
      · cases h
      next k afterKey hkey =>
      obtain ⟨hk, hafterKey⟩ := joined_of_string hkey (isWellFormed_tail ht)
      have hskip := isWellFormed_skipSpace hafterKey
      split at h
      next more hmore =>
        rw [hmore] at hskip
        split at h
        · cases h
        next j after hread =>
        obtain ⟨hj, hafter⟩ :=
          fits_of_value hread (isWellFormed_skipSpace (isWellFormed_tail hskip))
        have hskip := isWellFormed_skipSpace hafter
        split at h
        next others hothers =>
          rw [hothers] at hskip
          obtain ⟨⟨fs, more⟩, hread, heq⟩ := exists_of_map_ok h
          obtain ⟨rfl, rfl⟩ := Prod.mk.inj heq
          obtain ⟨hfs, hrest⟩ :=
            fitFields_of_members hread (isWellFormed_skipSpace (isWellFormed_tail hskip))
          exact ⟨⟨hk, hj, hfs⟩, hrest⟩
        next more hmore =>
          obtain ⟨rfl, rfl⟩ := Prod.mk.inj (Except.ok.inj h)
          exact ⟨⟨hk, hj, trivial⟩, isWellFormed_tail (hmore ▸ hskip)⟩
        · cases h
      · cases h
    · cases h

end

/-- **What is read from a text of characters fits.** -/
theorem fits_of_read {depth : Nat} {t : Text} {j : Json} (h : read depth t = .ok j)
    (ht : t.isWellFormed = true) : j.Fits depth := by
  unfold read at h
  split at h
  · cases h
  unfold readNested at h
  split at h
  · cases h
  next v rest hvalue =>
  split at h
  next =>
    obtain rfl := Except.ok.inj h
    exact (fits_of_value hvalue (isWellFormed_skipSpace ht)).1
  · cases h

/-- **What was read once is read again from its print**, and alike. -/
theorem read_print_of_read {depth : Nat} {t : Text} {j : Json} (h : read depth t = .ok j)
    (ht : t.isWellFormed = true) : read depth (ofString j.print) = .ok j :=
  read_print (fits_of_read h ht)

end LinearProgram.Json
