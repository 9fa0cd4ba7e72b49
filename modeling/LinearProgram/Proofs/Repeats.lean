import Mathlib
/-!
# Keys that were met before

Elements may have a key, and an element repeats one (`Repeats`) if an element before it has
the same.  A walk along a list that takes down the keys it meets knows by them what
repeats: `Remembers` is what it keeps true, with one lemma for each step it can take.

Two facts are about whole lists.  The elements with one key that repeat it are all of them
but the first (`filter_repeats`), and nothing repeats exactly if the keys are distinct
(`forall_not_repeats_iff`).  Both are inductions along the list, over what stands before.
-/
namespace LinearProgram

variable {α κ : Type} {key : α → Option κ}

/-- Whether an element has the key of one before it. -/
def Repeats (key : α → Option κ) (earlier : List α) (x : α) : Prop :=
  (key x).isSome ∧ ∃ w ∈ earlier, key w = key x

/-- The list holds the keys of the elements before. -/
def Remembers (key : α → Option κ) (taken : List κ) (earlier : List α) : Prop :=
  ∀ k, k ∈ taken ↔ ∃ w ∈ earlier, key w = some k

theorem remembers_nil (key : α → Option κ) : Remembers key [] [] := by
  simp [Remembers]

variable {taken : List κ} {earlier : List α} {x : α} {k : κ}

theorem Remembers.skip (h : Remembers key taken earlier) (hx : key x = none) :
    Remembers key taken (earlier ++ [x]) := by
  intro j
  simp [h j, hx]

theorem Remembers.again (h : Remembers key taken earlier) (hx : key x = some k)
    (hk : k ∈ taken) : Remembers key taken (earlier ++ [x]) := by
  intro j
  constructor
  · intro hj
    obtain ⟨w, hw, hjw⟩ := (h j).mp hj
    exact ⟨w, List.mem_append_left _ hw, hjw⟩
  · rintro ⟨w, hw, hjw⟩
    rcases List.mem_append.mp hw with hw | hw
    · exact (h j).mpr ⟨w, hw, hjw⟩
    · obtain rfl := List.mem_singleton.mp hw
      obtain rfl := Option.some.inj (hx.symm.trans hjw)
      exact hk

theorem Remembers.add (h : Remembers key taken earlier) (hx : key x = some k) :
    Remembers key (k :: taken) (earlier ++ [x]) := by
  intro j
  simp [h j, hx, or_comm, eq_comm]

theorem not_repeats_of_none (hx : key x = none) : ¬ Repeats key earlier x := by
  simp [Repeats, hx]

theorem repeats_iff_of_some (hx : key x = some k) :
    Repeats key earlier x ↔ ∃ w ∈ earlier, key w = some k := by
  simp [Repeats, hx]

theorem Remembers.repeats_iff (h : Remembers key taken earlier) (hx : key x = some k) :
    Repeats key earlier x ↔ k ∈ taken := by
  rw [repeats_iff_of_some hx, h k]

/-- Nothing repeats a key exactly if the keys are distinct, and none was met before. -/
theorem forall_not_repeats_iff (key : α → Option κ) (xs earlier : List α) :
    (∀ p ∈ xs.zipIdx earlier.length, ¬ Repeats key ((earlier ++ xs).take p.2) p.1) ↔
      (xs.filterMap key).Nodup ∧ ∀ k ∈ xs.filterMap key, ¬ ∃ w ∈ earlier, key w = some k := by
  induction xs generalizing earlier with
  | nil => simp
  | cons x xs ih =>
    have htake : (earlier ++ x :: xs).take earlier.length = earlier := List.take_left
    have hrest := ih (earlier ++ [x])
    rw [List.length_append, List.length_singleton, List.append_assoc, List.singleton_append]
      at hrest
    rw [List.zipIdx_cons, List.forall_mem_cons, htake, hrest]
    cases hx : key x with
    | none =>
      have hnot : ¬ Repeats key earlier x := not_repeats_of_none hx
      simp [hnot, hx]
    | some k =>
      rw [List.filterMap_cons_some hx, List.nodup_cons, List.forall_mem_cons,
        repeats_iff_of_some hx]
      constructor
      · rintro ⟨hk, hnodup, hmet⟩
        refine ⟨⟨fun hmem => hmet k hmem ⟨x, by simp, hx⟩, hnodup⟩, hk, ?_⟩
        rintro j hj ⟨w, hw, hjw⟩
        exact hmet j hj ⟨w, List.mem_append_left _ hw, hjw⟩
      · rintro ⟨⟨hmem, hnodup⟩, hk, hmet⟩
        refine ⟨hk, hnodup, ?_⟩
        rintro j hj ⟨w, hw, hjw⟩
        rcases List.mem_append.mp hw with hw | hw
        · exact hmet j hj ⟨w, hw, hjw⟩
        · obtain rfl := List.mem_singleton.mp hw
          obtain rfl := Option.some.inj (hx.symm.trans hjw)
          exact hmem hj

theorem forall_mem_zipIdx_iff {p : α → Prop} {xs : List α} :
    (∀ q ∈ xs.zipIdx, p q.1) ↔ ∀ x ∈ xs, p x := by
  conv_rhs => rw [← List.zipIdx_map_fst 0 xs]
  exact List.forall_mem_map.symm

variable [DecidableEq κ]

instance (key : α → Option κ) (earlier : List α) (x : α) : Decidable (Repeats key earlier x) :=
  inferInstanceAs (Decidable (_ ∧ _))

/-- **All holders of a key but the first repeat it**, and the first if the key was met before. -/
theorem filter_repeats (key : α → Option κ) (k : κ) (xs earlier : List α) :
    ((xs.zipIdx earlier.length).filter fun p =>
        Repeats key ((earlier ++ xs).take p.2) p.1 ∧ key p.1 = some k) =
      if ∃ w ∈ earlier, key w = some k then
        (xs.zipIdx earlier.length).filter (key ·.1 = some k)
      else ((xs.zipIdx earlier.length).filter (key ·.1 = some k)).tail := by
  induction xs generalizing earlier with
  | nil => simp
  | cons x xs ih =>
    have htake : (earlier ++ x :: xs).take earlier.length = earlier := List.take_left
    have hrest := ih (earlier ++ [x])
    rw [List.length_append, List.length_singleton, List.append_assoc, List.singleton_append]
      at hrest
    rw [List.zipIdx_cons]
    by_cases hx : key x = some k
    · have hmet : ∃ w ∈ earlier ++ [x], key w = some k := ⟨x, by simp, hx⟩
      rw [if_pos hmet] at hrest
      by_cases hearlier : ∃ w ∈ earlier, key w = some k
      · have hrepeats := (repeats_iff_of_some hx).mpr hearlier
        rw [List.filter_cons_of_pos (by simp [htake, hrepeats, hx]), hrest, if_pos hearlier,
          List.filter_cons_of_pos (by simpa using hx)]
      · have hrepeats : ¬ Repeats key earlier x := fun h =>
          hearlier ((repeats_iff_of_some hx).mp h)
        rw [List.filter_cons_of_neg (by simp [htake, hrepeats]), hrest, if_neg hearlier,
          List.filter_cons_of_pos (by simpa using hx), List.tail_cons]
    · have hmet : (∃ w ∈ earlier ++ [x], key w = some k) ↔ ∃ w ∈ earlier, key w = some k := by
        simp [hx]
      rw [List.filter_cons_of_neg (by simp [hx]), hrest,
        List.filter_cons_of_neg (by simpa using hx)]
      simp only [hmet]

theorem flatMap_singleton_if {β : Type} (p : α → Prop) [DecidablePred p] (f : α → β)
    (xs : List α) : xs.flatMap (fun a => if p a then [f a] else []) = (xs.filter p).map f := by
  induction xs with
  | nil => rfl
  | cons a xs ih => by_cases ha : p a <;> simp [ha, ih]

/-- What is made of the elements that repeat one key is made of its holders but the first. -/
theorem flatMap_repeats {β : Type} (key : α → Option κ) (k : κ) (f : α × Nat → β) (xs : List α) :
    (xs.zipIdx.flatMap fun p =>
        if Repeats key (xs.take p.2) p.1 ∧ key p.1 = some k then [f p] else []) =
      ((xs.zipIdx.filter (key ·.1 = some k)).map f).tail := by
  have hfilter := filter_repeats key k xs []
  rw [if_neg (by simp)] at hfilter
  rw [flatMap_singleton_if, ← List.map_tail]
  exact congrArg (List.map f) hfilter

end LinearProgram
