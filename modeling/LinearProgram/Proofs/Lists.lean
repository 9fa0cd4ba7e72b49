import Mathlib
import LinearProgram.Grouping
/-!
# Lists: traversals that may fail, groups, and order

Two things are done to lists everywhere in this library.  A list is mapped by a
function that may fail (`List.mapM` into `Option`), and a list of pairs is grouped
by its keys (`group`, `lastValues`).

For the first, `mapM_eq_some_iff` says that a traversal answers with a list whose
elements belong to the given ones, place by place; `mapM_eq_ok_iff` says the same of one
that fails for a reason, and `failure?_mapM` that the reason is that of the first element that
fails.

For the second, everything follows from one equation, `group_cons`: the first pair
opens the first group, which takes all later values of its key, and the other
groups are those of the pairs with another key.  So each proof about groups is an
induction on the length of the list.

Groups stand in the order of their first pairs.  Which of two elements stands first is told by
`List.idxOf`, and neither leaving out other elements nor erasing repetitions changes it
(`idxOf_filter_lt_iff`, `idxOf_eraseDups_lt_iff`).
-/
namespace LinearProgram

/-! ## Traversals that may fail -/

/-- A traversal answers with the list of the single answers. -/
theorem mapM_eq_some_iff {α β : Type} {f : α → Option β} :
    ∀ {xs : List α} {ys : List β},
      xs.mapM f = some ys ↔ List.Forall₂ (fun a b => f a = some b) xs ys
  | [], ys => by simp [eq_comm]
  | a :: xs, ys => by
    rw [List.mapM_cons, List.forall₂_cons_left_iff]
    constructor
    · intro h
      obtain ⟨b, hb, h⟩ := Option.bind_eq_some_iff.mp h
      obtain ⟨bs, hbs, h⟩ := Option.bind_eq_some_iff.mp h
      exact ⟨b, bs, hb, mapM_eq_some_iff.mp hbs, (Option.some.inj h).symm⟩
    · rintro ⟨b, bs, hb, hbs, rfl⟩
      simp [hb, mapM_eq_some_iff.mpr hbs]

/-- Options of which none is missing are a list. -/
theorem mapM_id_eq_some_iff {α : Type} {os : List (Option α)} {as : List α} :
    os.mapM id = some as ↔ os = as.map some := by
  rw [mapM_eq_some_iff, ← List.forall₂_eq_eq_eq, List.forall₂_map_right_iff]
  rfl

theorem mapM_eq_none_iff {α β : Type} {f : α → Option β} {xs : List α} :
    xs.mapM f = none ↔ ∃ a ∈ xs, f a = none := by
  induction xs with
  | nil => simp
  | cons a xs ih =>
    rw [List.mapM_cons]
    cases h : f a with
    | none => simp [h]
    | some b => cases hxs : xs.mapM f <;> simp_all

/-- A step that follows another one succeeds if both do. -/
theorem bind_eq_ok_iff {ε α β : Type} {x : Except ε α} {f : α → Except ε β} {b : β} :
    (x >>= f) = .ok b ↔ ∃ a, x = .ok a ∧ f a = .ok b := by
  cases x <;> simp [bind, Except.bind]

/-- An answer that is there is a success. -/
theorem eq_ok_of_toOption {ε α : Type} {x : Except ε α} {a : α} (h : x.toOption = some a) :
    x = .ok a := by
  cases x with
  | ok b => exact congrArg _ (Option.some.inj h)
  | error e => cases h

/-- A traversal that says why it fails answers with the list of the single answers too. -/
theorem mapM_eq_ok_iff {ε α β : Type} {f : α → Except ε β} {xs : List α} {ys : List β} :
    xs.mapM f = .ok ys ↔ List.Forall₂ (fun a b => f a = .ok b) xs ys := by
  induction xs generalizing ys with
  | nil => simp [pure, Except.pure, eq_comm]
  | cons a xs ih =>
    rw [List.mapM_cons, List.forall₂_cons_left_iff, bind_eq_ok_iff]
    constructor
    · rintro ⟨b, hb, h⟩
      obtain ⟨bs, hbs, h⟩ := bind_eq_ok_iff.mp h
      exact ⟨b, bs, hb, ih.mp hbs, (Except.ok.inj h).symm⟩
    · rintro ⟨b, bs, hb, hbs, rfl⟩
      exact ⟨b, hb, bind_eq_ok_iff.mpr ⟨bs, ih.mpr hbs, rfl⟩⟩

theorem mapM_option_eq_ok_iff {ε α β : Type} {f : α → Except ε β} {a? : Option α}
    {b? : Option β} : a?.mapM f = .ok b? ↔ Option.Rel (fun a b => f a = .ok b) a? b? := by
  cases a? with
  | none => cases b? <;> simp [Option.mapM, pure, Except.pure]
  | some a =>
    cases hf : f a <;> cases b? <;>
      simp [Option.mapM, Functor.map, Except.map, hf, Option.rel_some_some]

/-- Why a step fails, if it does. -/
def failure? {ε α : Type} : Except ε α → Option ε
  | .ok _ => none
  | .error e => some e

/-- Partners of all elements make a list. -/
theorem exists_forall₂ {α β : Type} {r : α → β → Prop} :
    ∀ {xs : List α}, (∀ a ∈ xs, ∃ b, r a b) → ∃ ys, List.Forall₂ r xs ys
  | [], _ => ⟨[], .nil⟩
  | a :: xs, h => by
    obtain ⟨b, hb⟩ := h a (List.mem_cons_self ..)
    obtain ⟨ys, hys⟩ := exists_forall₂ fun c hc => h c (List.mem_cons_of_mem _ hc)
    exact ⟨b :: ys, .cons hb hys⟩

/-- Partners have the same positions. -/
theorem forall₂_zipIdx {α β : Type} {r : α → β → Prop} :
    ∀ {xs : List α} {ys : List β}, List.Forall₂ r xs ys → ∀ n : Nat,
      List.Forall₂ (fun (p : α × Nat) (q : β × Nat) => r p.1 q.1 ∧ p.2 = q.2)
        (xs.zipIdx n) (ys.zipIdx n)
  | _, _, .nil, _ => .nil
  | _, _, .cons hab hrest, n => .cons ⟨hab, rfl⟩ (forall₂_zipIdx hrest (n + 1))

/-- What stands at a place on the one side has its partner there on the other. -/
theorem forall₂_getElem? {α β : Type} {r : α → β → Prop} :
    ∀ {xs : List α} {ys : List β}, List.Forall₂ r xs ys →
      ∀ {k : Nat} {a : α}, xs[k]? = some a → ∃ b, ys[k]? = some b ∧ r a b
  | _, _, .nil, k, a, hk => by simp at hk
  | _, _, .cons hab _, 0, _, hk => by
    simp only [List.getElem?_cons_zero, Option.some.injEq] at hk
    exact ⟨_, rfl, hk ▸ hab⟩
  | _, _, .cons _ hrest, k + 1, _, hk => by
    simp only [List.getElem?_cons_succ] at hk ⊢
    exact forall₂_getElem? hrest hk

theorem exists_mem_of_forall₂ {α β : Type} {r : α → β → Prop} {xs : List α} {ys : List β}
    (h : List.Forall₂ r xs ys) {a : α} (ha : a ∈ xs) : ∃ b ∈ ys, r a b := by
  obtain ⟨k, hk⟩ := List.mem_iff_getElem?.mp ha
  obtain ⟨b, hb, hab⟩ := forall₂_getElem? h hk
  exact ⟨b, List.mem_of_getElem? hb, hab⟩

/-- Distinct views on the one side make for distinct views on the other, if equal ones there
come from equal ones here. -/
theorem nodup_map_of_forall₂ {α β γ δ : Type} {r : α → β → Prop} {f : α → γ} {g : β → δ}
    {xs : List α} {ys : List β} (h : List.Forall₂ r xs ys)
    (hinj : ∀ {a a' : α} {b b' : β}, r a b → r a' b' → g b = g b' → f a = f a')
    (hnodup : (xs.map f).Nodup) : (ys.map g).Nodup := by
  induction h with
  | nil => exact List.nodup_nil
  | @cons a b xs ys hab hrest ih =>
    obtain ⟨ha, hxs⟩ := List.nodup_cons.mp hnodup
    refine List.nodup_cons.mpr ⟨fun hb => ha ?_, ih hxs⟩
    obtain ⟨b', hb', heq⟩ := List.mem_map.mp hb
    obtain ⟨a', ha', hab'⟩ := exists_mem_of_forall₂ hrest.flip hb'
    exact List.mem_map.mpr ⟨a', ha', hinj hab' hab heq⟩

/-- Elements that are filtered out may as well be mapped to nothing. -/
theorem flatMap_filter_map {α β γ : Type} (p : α → Bool) (f : α → β) (g : β → List γ) :
    ∀ xs : List α,
      ((xs.filter p).map f).flatMap g = xs.flatMap fun x => if p x then g (f x) else []
  | [] => rfl
  | x :: xs => by
    have hrest := flatMap_filter_map p f g xs
    by_cases hx : p x = true
    · simp [hx, hrest]
    · simp [hx, hrest]

/-- The last answer of a traversal is that of the last element that has one. -/
theorem getLast?_filterMap_eq_some_iff {α β : Type} {f : α → Option β} {b : β} :
    ∀ {xs : List α}, (xs.filterMap f).getLast? = some b ↔
      ∃ before a after, xs = before ++ a :: after ∧ f a = some b ∧ ∀ c ∈ after, f c = none := by
  intro xs
  rw [List.getLast?_filterMap, List.findSome?_eq_some_iff]
  constructor
  · rintro ⟨after, a, before, hxs, ha, hafter⟩
    refine ⟨before.reverse, a, after.reverse, ?_, ha, fun c hc => hafter c (by simpa using hc)⟩
    rw [← List.reverse_reverse xs, hxs]
    simp
  · rintro ⟨before, a, after, rfl, ha, hafter⟩
    exact ⟨after.reverse, a, before.reverse, by simp, ha, fun c hc => hafter c (by simpa using hc)⟩

/-- Of the elements with a property one is the last. -/
theorem exists_last {α : Type} {p : α → Prop} {xs : List α} (h : ∃ a ∈ xs, p a) :
    ∃ before a after, xs = before ++ a :: after ∧ p a ∧ ∀ b ∈ after, ¬ p b := by
  induction xs with
  | nil => simp at h
  | cons x xs ih =>
    by_cases hxs : ∃ a ∈ xs, p a
    · obtain ⟨before, a, after, rfl, ha, hafter⟩ := ih hxs
      exact ⟨x :: before, a, after, rfl, ha, hafter⟩
    · have hx : p x := by simpa [hxs] using h
      exact ⟨[], x, xs, rfl, hx, fun b hb hpb => hxs ⟨b, hb, hpb⟩⟩

/-- Partners that do the same to what is carried along carry the same through both lists. -/
theorem foldlM_eq_of_forall₂ {α β γ : Type} {f : γ → α → Option γ} {g : γ → β → Option γ}
    {xs : List α} {ys : List β} (h : List.Forall₂ (fun a b => ∀ c, g c b = f c a) xs ys) (c : γ) :
    ys.foldlM g c = xs.foldlM f c := by
  induction h generalizing c with
  | nil => rfl
  | cons hab _ ih => rw [List.foldlM_cons, List.foldlM_cons, hab, funext ih]

/-- Two lists whose elements agree in a view, place by place, agree in the view. -/
theorem map_eq_map_of_forall₂ {α β γ : Type} {f : α → γ} {g : β → γ} {xs : List α} {ys : List β}
    (h : List.Forall₂ (fun a b => g b = f a) xs ys) : ys.map g = xs.map f := by
  rw [← List.forall₂_eq_eq_eq, List.forall₂_map_left_iff, List.forall₂_map_right_iff]
  exact h.flip

/-- What is made of one element of a list only is found there. -/
theorem filter_flatMap_of_nodup {α β κ : Type} {key : α → κ} {xs : List α}
    (hnodup : (xs.map key).Nodup) {a : α} (ha : a ∈ xs) {f : α → List β} {p : β → Bool}
    (h : ∀ x ∈ xs, key x ≠ key a → ∀ b ∈ f x, p b = false) :
    (xs.flatMap f).filter p = (f a).filter p := by
  obtain ⟨before, after, rfl⟩ := List.append_of_mem ha
  rw [List.map_append, List.map_cons, List.nodup_middle, List.nodup_cons, ← List.map_append]
    at hnodup
  have hother : ∀ x ∈ before ++ after, (f x).filter p = [] := by
    intro x hx
    rw [List.filter_eq_nil_iff]
    intro b hb
    rw [h x ?_ (fun heq => hnodup.1 (List.mem_map.mpr ⟨x, hx, heq⟩)) b hb]
    · exact Bool.false_ne_true
    · exact List.mem_append.mpr ((List.mem_append.mp hx).imp_right (List.mem_cons_of_mem _))
  have hempty : ∀ {ys : List α}, (∀ x ∈ ys, x ∈ before ++ after) →
      (ys.flatMap f).filter p = [] := by
    intro ys hys
    rw [List.filter_flatMap, List.flatMap_eq_nil_iff]
    exact fun x hx => hother x (hys x hx)
  rw [List.flatMap_append, List.flatMap_cons, List.filter_append, List.filter_append,
    hempty fun x hx => List.mem_append_left _ hx, hempty fun x hx => List.mem_append_right _ hx,
    List.nil_append, List.append_nil]

/-- What is made of one element of a list only is counted there. -/
theorem count_flatMap_of_nodup {α β κ : Type} [BEq β] [LawfulBEq β] {key : α → κ} {xs : List α}
    (hnodup : (xs.map key).Nodup) {a : α} (ha : a ∈ xs) {f : α → List β} {b : β}
    (h : ∀ x ∈ xs, key x ≠ key a → b ∉ f x) : (xs.flatMap f).count b = (f a).count b := by
  have hother : ∀ x ∈ xs, key x ≠ key a → ∀ c ∈ f x, (c == b) = false := by
    intro x hx hne c hc
    rw [beq_eq_false_iff_ne]
    rintro rfl
    exact h x hx hne hc
  rw [List.count_eq_countP, List.countP_eq_length_filter, filter_flatMap_of_nodup hnodup ha hother,
    ← List.countP_eq_length_filter, ← List.count_eq_countP]

/-- What is made at one place of a list only is counted there. -/
theorem count_flatMap_zipIdx {α β : Type} [BEq β] [LawfulBEq β] {xs : List α} {k : Nat} {a : α}
    (hk : xs[k]? = some a) {f : α × Nat → List β} {b : β}
    (h : ∀ p ∈ xs.zipIdx, p.2 ≠ k → b ∉ f p) :
    (xs.zipIdx.flatMap f).count b = (f (a, k)).count b := by
  have hnodup : (xs.zipIdx.map (·.2)).Nodup := by
    rw [List.zipIdx_map_snd]
    exact List.nodup_range'
  exact count_flatMap_of_nodup hnodup (List.mem_zipIdx_iff_getElem?.mpr hk) h

/-! ## Distinct elements -/

section

variable {κ α : Type} [DecidableEq κ]

theorem eraseDups_cons_ne (k : κ) (ks : List κ) :
    (k :: ks).eraseDups = k :: (ks.filter (· ≠ k)).eraseDups := by
  rw [List.eraseDups_cons]
  congr 2
  exact List.filter_congr fun j _ => by rw [beq_eq_decide, decide_not]

/-- No element is listed twice. -/
theorem nodup_eraseDups : ∀ ks : List κ, ks.eraseDups.Nodup
  | [] => by simp
  | k :: ks => by
    rw [eraseDups_cons_ne, List.nodup_cons, List.mem_eraseDups]
    exact ⟨by simp, nodup_eraseDups _⟩
termination_by ks => ks.length
decreasing_by exact Nat.lt_succ_of_le (List.length_filter_le _ _)

/-- A list without repetition stays as it is. -/
theorem eraseDups_of_nodup : ∀ {ks : List κ}, ks.Nodup → ks.eraseDups = ks
  | [], _ => by simp
  | k :: ks, h => by
    obtain ⟨hk, hks⟩ := List.nodup_cons.mp h
    have hfilter : ks.filter (· ≠ k) = ks := by
      rw [List.filter_eq_self]
      intro j hj
      simpa using fun hjk : j = k => hk (hjk ▸ hj)
    rw [eraseDups_cons_ne, hfilter, eraseDups_of_nodup hks]

/-! ## Which of two elements stands first -/

/-- Behind one head two lists order two elements alike if they order those other than the head
alike. -/
theorem idxOf_cons_lt_iff {k a b : κ} {xs ys : List κ}
    (h : k ≠ a → k ≠ b → (xs.idxOf a < xs.idxOf b ↔ ys.idxOf a < ys.idxOf b)) :
    (k :: xs).idxOf a < (k :: xs).idxOf b ↔ (k :: ys).idxOf a < (k :: ys).idxOf b := by
  by_cases hb : k = b
  · simp [hb]
  · rw [List.idxOf_cons_ne _ hb, List.idxOf_cons_ne _ hb]
    by_cases ha : k = a
    · simp [ha]
    · rw [List.idxOf_cons_ne _ ha, List.idxOf_cons_ne _ ha, Nat.succ_lt_succ_iff,
        Nat.succ_lt_succ_iff]
      exact h ha hb

/-- Leaving out others does not change which of two elements stands first. -/
theorem idxOf_filter_lt_iff {p : κ → Bool} {a b : κ} (ha : p a = true) (hb : p b = true)
    (ks : List κ) :
    (ks.filter p).idxOf a < (ks.filter p).idxOf b ↔ ks.idxOf a < ks.idxOf b := by
  induction ks with
  | nil => rfl
  | cons k ks ih =>
    by_cases hk : p k = true
    · rw [List.filter_cons_of_pos hk]
      exact idxOf_cons_lt_iff fun _ _ => ih
    · have hne : ∀ {c : κ}, p c = true → k ≠ c := fun hc e => hk (e ▸ hc)
      rw [List.filter_cons_of_neg hk, List.idxOf_cons_ne _ (hne ha), List.idxOf_cons_ne _ (hne hb),
        Nat.succ_lt_succ_iff]
      exact ih

/-- Erasing repetitions does not change which of two elements stands first. -/
theorem idxOf_eraseDups_lt_iff (a b : κ) : ∀ ks : List κ,
    ks.eraseDups.idxOf a < ks.eraseDups.idxOf b ↔ ks.idxOf a < ks.idxOf b
  | [] => by simp
  | k :: ks => by
    rw [eraseDups_cons_ne]
    refine idxOf_cons_lt_iff fun ha hb => ?_
    rw [idxOf_eraseDups_lt_iff a b (ks.filter (· ≠ k))]
    exact idxOf_filter_lt_iff (by simpa using ha.symm) (by simpa using hb.symm) ks
termination_by ks => ks.length
decreasing_by exact Nat.lt_succ_of_le (List.length_filter_le _ _)

/-- In a part of a list without repetition the elements stand as they do in the list. -/
theorem idxOf_lt_iff_of_sublist {xs ys : List κ} (h : xs.Sublist ys) (hys : ys.Nodup) {a b : κ}
    (ha : a ∈ xs) (hb : b ∈ xs) : xs.idxOf a < xs.idxOf b ↔ ys.idxOf a < ys.idxOf b := by
  induction h with
  | slnil => cases ha
  | @cons xs ys y h ih =>
    obtain ⟨hy, hys⟩ := List.nodup_cons.mp hys
    have hne : ∀ {c : κ}, c ∈ xs → y ≠ c := fun hc e => hy (e ▸ h.subset hc)
    rw [List.idxOf_cons_ne _ (hne ha), List.idxOf_cons_ne _ (hne hb), Nat.succ_lt_succ_iff]
    exact ih hys ha hb
  | cons_cons y h ih =>
    refine idxOf_cons_lt_iff fun hya hyb => ih (List.nodup_cons.mp hys).2 ?_ ?_
    · exact (List.mem_cons.mp ha).resolve_left hya.symm
    · exact (List.mem_cons.mp hb).resolve_left hyb.symm

/-! ## Groups -/

@[simp] theorem valuesOf_nil (k : κ) : valuesOf k ([] : List (κ × α)) = [] := rfl

theorem valuesOf_cons (k : κ) (p : κ × α) (ps : List (κ × α)) :
    valuesOf k (p :: ps) = if p.1 = k then p.2 :: valuesOf k ps else valuesOf k ps := by
  by_cases h : p.1 = k <;> simp [valuesOf, h]

theorem valuesOf_append (k : κ) (ps qs : List (κ × α)) :
    valuesOf k (ps ++ qs) = valuesOf k ps ++ valuesOf k qs := by
  simp [valuesOf]

theorem valuesOf_flatMap {β : Type} (k : κ) (f : β → List (κ × α)) (xs : List β) :
    valuesOf k (xs.flatMap f) = xs.flatMap fun x => valuesOf k (f x) := by
  rw [valuesOf, List.filterMap_flatMap]
  rfl

/-- Pairs with another key do not matter to a key. -/
theorem valuesOf_filter_ne {k j : κ} (h : k ≠ j) (ps : List (κ × α)) :
    valuesOf k (ps.filter (·.1 ≠ j)) = valuesOf k ps := by
  induction ps with
  | nil => rfl
  | cons p ps ih =>
    by_cases hp : p.1 = j
    · have hk : p.1 ≠ k := fun e => h (e ▸ hp)
      rw [List.filter_cons_of_neg (by simpa using hp), valuesOf_cons, if_neg hk, ih]
    · rw [List.filter_cons_of_pos (by simpa using hp), valuesOf_cons, valuesOf_cons, ih]

/-- Of elements that make pairs, those with the key make its values. -/
theorem valuesOf_map_filter {β : Type} (k : κ) (p : β → Bool) (key : β → κ) (value : β → α)
    (xs : List β) : valuesOf k ((xs.filter p).map fun x => (key x, value x))
      = (xs.filter fun x => key x = k && p x).map value := by
  induction xs with
  | nil => rfl
  | cons x xs ih =>
    cases hp : p x with
    | false => simpa [hp] using ih
    | true =>
      by_cases hkey : key x = k
      · simpa [hp, hkey, valuesOf_cons] using ih
      · simpa [hp, hkey, valuesOf_cons] using ih

theorem mem_valuesOf {k : κ} {a : α} {ps : List (κ × α)} : a ∈ valuesOf k ps ↔ (k, a) ∈ ps := by
  simp only [valuesOf, List.mem_filterMap, Option.ite_none_right_eq_some, Option.some.injEq]
  constructor
  · rintro ⟨⟨_, _⟩, hp, rfl, rfl⟩
    exact hp
  · intro hp
    exact ⟨(k, a), hp, rfl, rfl⟩

theorem valuesOf_eq_nil_iff {k : κ} {ps : List (κ × α)} :
    valuesOf k ps = [] ↔ k ∉ ps.map (·.1) := by
  rw [List.eq_nil_iff_forall_not_mem, List.mem_map]
  constructor
  · rintro h ⟨⟨_, a⟩, hp, rfl⟩
    exact h a (mem_valuesOf.mpr hp)
  · intro h a ha
    exact h ⟨(k, a), mem_valuesOf.mp ha, rfl⟩

/-- Under keys that are all different, each pair has its value to itself. -/
theorem valuesOf_of_nodup {k : κ} {a : α} :
    ∀ {ps : List (κ × α)}, (ps.map (·.1)).Nodup → (k, a) ∈ ps → valuesOf k ps = [a]
  | p :: ps, h, hp => by
    obtain ⟨hk, hps⟩ := List.nodup_cons.mp h
    rw [valuesOf_cons]
    rcases List.mem_cons.mp hp with rfl | hp
    · rw [if_pos rfl, valuesOf_eq_nil_iff.mpr hk]
    · have hne : p.1 ≠ k := fun e => hk (List.mem_map.mpr ⟨(k, a), hp, e.symm⟩)
      rw [if_neg hne, valuesOf_of_nodup hps hp]

@[simp] theorem group_nil : group ([] : List (κ × α)) = [] := rfl

/-- The first pair opens the first group, which takes all values of its key. -/
theorem group_cons (k : κ) (a : α) (ps : List (κ × α)) :
    group ((k, a) :: ps) = (k, a :: valuesOf k ps) :: group (ps.filter (·.1 ≠ k)) := by
  have hkeys : (ps.map (·.1)).filter (· ≠ k) = (ps.filter (·.1 ≠ k)).map (·.1) := by
    rw [List.filter_map]
    rfl
  simp only [group, List.map_cons]
  rw [eraseDups_cons_ne, hkeys, List.map_cons, valuesOf_cons, if_pos rfl]
  congr 1
  refine List.map_congr_left fun j hj => ?_
  have hjk : j ≠ k := by
    rw [List.mem_eraseDups] at hj
    obtain ⟨p, hp, rfl⟩ := List.mem_map.mp hj
    simpa using (List.mem_filter.mp hp).2
  rw [valuesOf_cons, if_neg hjk.symm, valuesOf_filter_ne hjk]

theorem keys_group (ps : List (κ × α)) : (group ps).map (·.1) = (ps.map (·.1)).eraseDups := by
  simp [group, List.map_map, Function.comp_def]

theorem nodup_keys_group (ps : List (κ × α)) : ((group ps).map (·.1)).Nodup := by
  rw [keys_group]
  exact nodup_eraseDups _

theorem mem_group {g : κ × List α} {ps : List (κ × α)} :
    g ∈ group ps ↔ g.1 ∈ ps.map (·.1) ∧ g.2 = valuesOf g.1 ps := by
  simp only [group, List.mem_map (l := (ps.map (·.1)).eraseDups), List.mem_eraseDups]
  constructor
  · rintro ⟨k, hk, rfl⟩
    exact ⟨hk, rfl⟩
  · rintro ⟨hk, hg⟩
    exact ⟨g.1, hk, by rw [← hg]⟩

/-- Under keys that are all different, every group holds one value. -/
theorem group_of_nodup : ∀ {ps : List (κ × α)}, (ps.map (·.1)).Nodup →
    group ps = ps.map fun p => (p.1, [p.2])
  | [], _ => rfl
  | (k, a) :: ps, h => by
    obtain ⟨hk, hps⟩ := List.nodup_cons.mp h
    have hfilter : ps.filter (·.1 ≠ k) = ps := by
      rw [List.filter_eq_self]
      intro p hp
      simpa using fun e : p.1 = k => hk (List.mem_map.mpr ⟨p, hp, e⟩)
    rw [group_cons, hfilter, valuesOf_eq_nil_iff.mpr hk, group_of_nodup hps, List.map_cons]

/-- There are as many groups as pairs only if all keys are different. -/
theorem nodup_of_length_group {ps : List (κ × α)} (h : (group ps).length = ps.length) :
    (ps.map (·.1)).Nodup := by
  have hlength : (ps.map (·.1)).eraseDups.length = (ps.map (·.1)).length := by
    rw [← keys_group, List.length_map, List.length_map, h]
  have hsub : (ps.map (·.1)).eraseDups ⊆ ps.map (·.1) := fun k hk => List.mem_eraseDups.mp hk
  have hperm : (ps.map (·.1)).eraseDups.Perm (ps.map (·.1)) :=
    ((nodup_eraseDups _).subperm hsub).perm_of_length_le hlength.ge
  exact hperm.nodup_iff.mp (nodup_eraseDups _)

theorem length_group_le (ps : List (κ × α)) : (group ps).length ≤ ps.length := by
  have hsub : (ps.map (·.1)).eraseDups ⊆ ps.map (·.1) := fun k hk => List.mem_eraseDups.mp hk
  have hle := ((nodup_eraseDups _).subperm hsub).length_le
  rwa [← keys_group, List.length_map, List.length_map] at hle

/-- A sum over pairs may be taken group by group. -/
theorem sum_group {M : Type} [AddCommMonoid M] (f : κ → α → M) :
    ∀ ps : List (κ × α),
      ((group ps).map fun g => (g.2.map (f g.1)).sum).sum = (ps.map fun p => f p.1 p.2).sum
  | [] => by simp
  | (k, a) :: ps => by
    -- The pairs after the first are those of its key and those of another one.
    have hsplit : ∀ qs : List (κ × α), (qs.map fun p => f p.1 p.2).sum
        = ((valuesOf k qs).map (f k)).sum
          + ((qs.filter (·.1 ≠ k)).map fun p => f p.1 p.2).sum := by
      intro qs
      induction qs with
      | nil => simp
      | cons q qs ih =>
        by_cases hq : q.1 = k
        · simp [valuesOf_cons, hq, ih, add_assoc]
        · simp [valuesOf_cons, hq, ih, add_left_comm]
    rw [group_cons, List.map_cons, List.sum_cons, sum_group f (ps.filter (·.1 ≠ k)),
      List.map_cons, List.sum_cons, List.map_cons, List.sum_cons, hsplit ps, add_assoc]
termination_by ps => ps.length
decreasing_by exact Nat.lt_succ_of_le (List.length_filter_le _ _)

/-! ## Last values -/

/-- Under keys that are all different, each pair keeps its value. -/
theorem lastValues_of_nodup {ps : List (κ × α)} (h : (ps.map (·.1)).Nodup) :
    lastValues ps = ps := by
  rw [lastValues, group_of_nodup h, List.filterMap_map]
  simp [Function.comp_def]

theorem lastValue?_of_nodup {k : κ} {a : α} {ps : List (κ × α)} (h : (ps.map (·.1)).Nodup)
    (hp : (k, a) ∈ ps) : lastValue? k ps = some a := by
  rw [lastValue?, valuesOf_of_nodup h hp, List.getLast?_singleton]

theorem lastValue?_eq_none {k : κ} {ps : List (κ × α)} (h : k ∉ ps.map (·.1)) :
    lastValue? k ps = none := by
  rw [lastValue?, valuesOf_eq_nil_iff.mpr h, List.getLast?_nil]

theorem mem_lastValues {k : κ} {a : α} {ps : List (κ × α)} :
    (k, a) ∈ lastValues ps ↔ lastValue? k ps = some a := by
  simp only [lastValues, List.mem_filterMap, mem_group, Option.map_eq_some_iff, Prod.mk.injEq]
  constructor
  · rintro ⟨⟨j, xs⟩, ⟨_, hxs⟩, b, hlast, rfl, rfl⟩
    rw [lastValue?, ← hxs, hlast]
  · intro h
    have hk : k ∈ ps.map (·.1) := by
      by_contra hk
      rw [lastValue?_eq_none hk] at h
      cases h
    exact ⟨(k, valuesOf k ps), ⟨hk, rfl⟩, a, h, rfl, rfl⟩

/-- No key has two entries. -/
theorem nodup_keys_lastValues (ps : List (κ × α)) : ((lastValues ps).map (·.1)).Nodup := by
  refine (nodup_keys_group ps).sublist ?_
  rw [lastValues]
  induction group ps with
  | nil => exact List.Sublist.refl []
  | cons g gs ih =>
    cases h : g.2.getLast? with
    | none => exact .cons _ (by simpa [h] using ih)
    | some a => simpa [h] using ih

end

end LinearProgram
