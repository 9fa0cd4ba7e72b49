import Mathlib
import LinearProgram.Model
import LinearProgram.Proofs.Lists
/-!
# The normal form

`IsNormal` says what a linear function in normal form is: no variable has two terms
and no factor is zero.  Two facts about `normalized?` carry everything else.

* `normalized?_eq_merged?`: the three shortcuts change nothing.  They are taken by
  functions in normal form (`IsNormal.normalForm?_eq`), which merging would leave alone
  (`IsNormal.merged?_eq`), and by a single term that is zero; all other functions are
  merged (`normalForm?_eq_replaced`).
* `merged?_eq_some_iff`: merging makes one term of each group, with the combined
  factor, and keeps those that are not zero.

For models, `Normalizes` says place by place what becomes of a model.
-/
namespace LinearProgram

variable {R : Type}

/-! ## Terms and variables of a model -/

namespace Model

variable {m : Model R}

theorem mem_terms_iff {t : Term R} : t ∈ m.terms ↔ ∃ f ∈ m.functions, t ∈ f.terms :=
  List.mem_flatMap

theorem function_mem_functions {c : LabeledConstraint R} (hc : c ∈ m.constraints) :
    c.constraint.function ∈ m.functions :=
  List.mem_append_right _ (List.mem_map.mpr ⟨c, hc, rfl⟩)

theorem objective_mem_functions {o : Objective R} (ho : m.objective? = some o) :
    o.function ∈ m.functions :=
  List.mem_append_left _ (by simp [ho])

variable [DecidableEq R]

theorem mem_vars_iff {v : Variable R} : v ∈ m.vars ↔ ∃ t ∈ m.terms, t.var = v := by
  rw [vars, List.mem_eraseDups, List.mem_map]

theorem nodup_vars (m : Model R) : m.vars.Nodup :=
  nodup_eraseDups _

/-- The variable of a term of one of its functions is a variable of the model. -/
theorem var_mem_vars {f : LinearFunction R} (hf : f ∈ m.functions) {t : Term R}
    (ht : t ∈ f.terms) : t.var ∈ m.vars :=
  mem_vars_iff.mpr ⟨t, mem_terms_iff.mpr ⟨f, hf, ht⟩, rfl⟩

end Model

variable [Scalar R]

/-! ## Functions -/

namespace LinearFunction

/-- No variable has two terms, and no factor is zero. -/
structure IsNormal (f : LinearFunction R) : Prop where
  nodup : (f.terms.map (·.var)).Nodup
  nonzero : ∀ t ∈ f.terms, t.factor.isZero = false

theorem IsNormal.nonzeroTerms_eq {f : LinearFunction R} (h : f.IsNormal) :
    f.nonzeroTerms = f.terms := by
  rw [nonzeroTerms, List.filter_eq_self]
  intro t ht
  simp [h.nonzero t ht]

variable [DecidableEq R]

/-- Merging makes one term of each group and drops those whose factor is zero. -/
theorem merged?_eq_some_iff {f g : LinearFunction R} :
    f.merged? = some g ↔
      ∃ ts, List.Forall₂ (fun (p : Variable R × List (Number R)) (t : Term R) =>
          t.var = p.1 ∧ combined? p.2 = some t.factor) f.groups ts ∧
        g = ⟨ts.filter (!·.factor.isZero), f.constant⟩ := by
  have hterm : ∀ (p : Variable R × List (Number R)) (t : Term R),
      (do return (⟨p.1, ← combined? p.2⟩ : Term R)) = some t ↔
        t.var = p.1 ∧ combined? p.2 = some t.factor := by
    intro p t
    cases hp : combined? p.2 with
    | none => simp
    | some k =>
      obtain ⟨v, j⟩ := t
      simp [eq_comm]
  constructor
  · intro h
    obtain ⟨ts, hts, h⟩ := Option.bind_eq_some_iff.mp h
    refine ⟨ts, ?_, (Option.some.inj h).symm⟩
    exact (mapM_eq_some_iff.mp hts).imp fun p t => (hterm p t).mp
  · rintro ⟨ts, hts, rfl⟩
    have hmapM := mapM_eq_some_iff.mpr (hts.imp fun p t => (hterm p t).mpr)
    rw [merged?, hmapM]
    rfl

/-- A function in normal form has one group for each term, with the factor of the term. -/
theorem IsNormal.groups_eq {f : LinearFunction R} (h : f.IsNormal) :
    f.groups = f.terms.map fun t => (t.var, [t.factor]) := by
  have hnodup : ((f.terms.map fun t => (t.var, t.factor)).map (·.1)).Nodup := by
    simpa [List.map_map, Function.comp_def] using h.nodup
  rw [groups, h.nonzeroTerms_eq, group_of_nodup hnodup, List.map_map]
  rfl

/-- Merging leaves a function in normal form alone. -/
theorem IsNormal.merged?_eq {f : LinearFunction R} (h : f.IsNormal) : f.merged? = some f := by
  rw [merged?_eq_some_iff]
  refine ⟨f.terms, ?_, ?_⟩
  · rw [h.groups_eq, List.forall₂_map_left_iff, List.forall₂_same]
    exact fun t _ => ⟨rfl, rfl⟩
  · have hfilter : f.terms.filter (!·.factor.isZero) = f.terms := h.nonzeroTerms_eq
    rw [hfilter]

/-- As many groups as terms: then no factor is zero and no variable occurs twice. -/
theorem isNormal_of_length_groups {f : LinearFunction R} (h : f.groups.length = f.terms.length) :
    f.IsNormal := by
  have hgroups : f.groups.length ≤ f.nonzeroTerms.length := by
    simpa [groups] using length_group_le (f.nonzeroTerms.map fun t => (t.var, t.factor))
  have hfilter : f.nonzeroTerms.length ≤ f.terms.length := List.length_filter_le _ _
  have hlength : f.nonzeroTerms.length = f.terms.length := by omega
  have hall : ∀ t ∈ f.terms, (!t.factor.isZero) = true :=
    List.length_filter_eq_length_iff.mp hlength
  have hterms : f.nonzeroTerms = f.terms := List.filter_eq_self.mpr hall
  refine ⟨?_, fun t ht => by simpa using hall t ht⟩
  have hpairs : (group (f.terms.map fun t => (t.var, t.factor))).length
      = (f.terms.map fun t => (t.var, t.factor)).length := by
    rw [List.length_map, ← h, groups, hterms]
  simpa [List.map_map, Function.comp_def] using nodup_of_length_group hpairs

/-- A function in normal form stays as it is, whichever shortcut it takes. -/
theorem IsNormal.normalForm?_eq {f : LinearFunction R} (h : f.IsNormal) :
    f.normalForm? = some .unchanged := by
  obtain ⟨ts, c⟩ := f
  match ts with
  | [] => rfl
  | [t] =>
    have hzero : t.factor.isZero = false := h.nonzero t (List.mem_singleton_self t)
    simp [normalForm?, hzero]
  | t :: u :: ts =>
    have hlength : (groups ⟨t :: u :: ts, c⟩).length = (t :: u :: ts).length := by
      rw [h.groups_eq, List.length_map]
    simp only [normalForm?, if_pos hlength]

/-- Any other function is replaced by what merging makes of it. -/
theorem normalForm?_eq_replaced {f : LinearFunction R} (h : ¬ f.IsNormal) :
    f.normalForm? = f.merged?.map .replaced := by
  obtain ⟨ts, c⟩ := f
  match ts with
  | [] => exact absurd ⟨List.nodup_nil, by simp⟩ h
  | [t] =>
    cases hzero : t.factor.isZero with
    | true =>
      have hmerged : merged? ⟨[t], c⟩ = some ⟨[], c⟩ :=
        merged?_eq_some_iff.mpr ⟨[], by simp [groups, nonzeroTerms, hzero], rfl⟩
      simp [normalForm?, hzero, hmerged]
    | false => exact absurd ⟨by simp, by simpa using hzero⟩ h
  | t :: u :: ts =>
    have hlength : (groups ⟨t :: u :: ts, c⟩).length ≠ (t :: u :: ts).length :=
      fun e => h (isNormal_of_length_groups e)
    simp only [normalForm?, if_neg hlength]

/-- The shortcuts of normalising give what merging gives. -/
theorem normalized?_eq_merged? (f : LinearFunction R) : f.normalized? = f.merged? := by
  by_cases h : f.IsNormal
  · rw [normalized?, h.normalForm?_eq, h.merged?_eq]
    rfl
  · rw [normalized?, normalForm?_eq_replaced h, Option.map_map]
    exact Option.map_id'

variable {f g : LinearFunction R}

/-- A function has a normal form if the factors of every group combine. -/
theorem exists_normalized?_of_combined (h : ∀ p ∈ f.groups, ∃ k, combined? p.2 = some k) :
    ∃ g, f.normalized? = some g := by
  have hterm : ∀ p ∈ f.groups, ∃ t : Term R, t.var = p.1 ∧ combined? p.2 = some t.factor := by
    intro p hp
    obtain ⟨k, hk⟩ := h p hp
    exact ⟨⟨p.1, k⟩, rfl, hk⟩
  obtain ⟨ts, hts⟩ := exists_forall₂ hterm
  rw [normalized?_eq_merged?]
  exact ⟨_, merged?_eq_some_iff.mpr ⟨ts, hts, rfl⟩⟩

/-- Merged terms come from groups: same variable, combined factor. -/
theorem mem_terms_of_normalized? (h : f.normalized? = some g) {t : Term R} (ht : t ∈ g.terms) :
    ∃ factors, (t.var, factors) ∈ f.groups ∧ combined? factors = some t.factor := by
  rw [normalized?_eq_merged?] at h
  obtain ⟨ts, hts, rfl⟩ := merged?_eq_some_iff.mp h
  have hmem : t ∈ ts := (List.mem_filter.mp ht).1
  obtain ⟨k, hk⟩ := List.mem_iff_getElem?.mp hmem
  obtain ⟨p, hp, hvar, hfactor⟩ := forall₂_getElem? hts.flip hk
  exact ⟨p.2, by rw [hvar]; exact List.mem_of_getElem? hp, hfactor⟩

/-- The variables of the normal form are some of those of the groups, in their order. -/
theorem vars_sublist_of_normalized? (h : f.normalized? = some g) :
    (g.terms.map (·.var)).Sublist (f.groups.map (·.1)) := by
  rw [normalized?_eq_merged?] at h
  obtain ⟨ts, hts, rfl⟩ := merged?_eq_some_iff.mp h
  have hvars : ts.map (·.var) = f.groups.map (·.1) :=
    map_eq_map_of_forall₂ (hts.imp fun _ _ => And.left)
  rw [← hvars]
  exact List.filter_sublist.map _

/-- What normalising makes is in normal form. -/
theorem isNormal_of_normalized? (h : f.normalized? = some g) : g.IsNormal := by
  refine ⟨(nodup_keys_group _).sublist (vars_sublist_of_normalized? h), fun t ht => ?_⟩
  rw [normalized?_eq_merged?] at h
  obtain ⟨ts, _, rfl⟩ := merged?_eq_some_iff.mp h
  simpa using (List.mem_filter.mp ht).2

/-- Normalising keeps the constant. -/
theorem constant_of_normalized? (h : f.normalized? = some g) : g.constant = f.constant := by
  rw [normalized?_eq_merged?] at h
  obtain ⟨ts, _, rfl⟩ := merged?_eq_some_iff.mp h
  rfl

end LinearFunction

/-! ## Models -/

namespace Model

variable [DecidableEq R]

/-- One model is the other with every function in normal form; all else stays. -/
structure Normalizes (m n : Model R) : Prop where
  name : n.name = m.name
  objective : Option.Rel (fun (o p : Objective R) =>
    o.function.normalized? = some p.function ∧ p.optimization = o.optimization)
    m.objective? n.objective?
  constraints : List.Forall₂ (fun (c d : LabeledConstraint R) =>
    c.constraint.function.normalized? = some d.constraint.function ∧
      d.constraint.comparison = c.constraint.comparison ∧
      d.constraint.constant = c.constraint.constant ∧ d.label? = c.label?)
    m.constraints n.constraints

/-- The objective of a normalised model. -/
theorem mapM_objective_eq_some_iff {o? p? : Option (Objective R)} :
    o?.mapM Objective.normalized? = some p? ↔
      Option.Rel (fun (o p : Objective R) =>
        o.function.normalized? = some p.function ∧ p.optimization = o.optimization) o? p? := by
  cases o? with
  | none => cases p? <;> simp [Option.mapM]
  | some o =>
    cases hf : o.function.normalized? with
    | none => cases p? <;> simp [Objective.normalized?, hf, Option.rel_some_some]
    | some f =>
      cases p? with
      | none => simp [Objective.normalized?, hf]
      | some p =>
        obtain ⟨g, direction⟩ := p
        simp [Objective.normalized?, hf, Option.rel_some_some, eq_comm]

/-- A constraint of a normalised model. -/
theorem normalized_constraint_iff {c d : LabeledConstraint R} :
    (do return { c with constraint := ← c.constraint.normalized? }) = some d ↔
      c.constraint.function.normalized? = some d.constraint.function ∧
        d.constraint.comparison = c.constraint.comparison ∧
        d.constraint.constant = c.constraint.constant ∧ d.label? = c.label? := by
  obtain ⟨⟨f, r, k⟩, label?⟩ := d
  cases hf : c.constraint.function.normalized? with
  | none => simp [Constraint.normalized?, hf]
  | some g => simp [Constraint.normalized?, hf, eq_comm, and_assoc]

/-- What normalising a model means, place by place. -/
theorem normalized?_eq_some_iff {m n : Model R} : m.normalized? = some n ↔ m.Normalizes n := by
  constructor
  · intro h
    obtain ⟨o?, ho, h⟩ := Option.bind_eq_some_iff.mp h
    obtain ⟨cs, hcs, h⟩ := Option.bind_eq_some_iff.mp h
    obtain rfl := Option.some.inj h
    refine ⟨rfl, mapM_objective_eq_some_iff.mp ho, ?_⟩
    exact (mapM_eq_some_iff.mp hcs).imp fun c d => normalized_constraint_iff.mp
  · rintro ⟨hname, hobjective, hconstraints⟩
    have ho := mapM_objective_eq_some_iff.mpr hobjective
    have hcs := mapM_eq_some_iff.mpr
      (hconstraints.imp fun c d => normalized_constraint_iff.mpr)
    obtain ⟨name, o?, cs⟩ := n
    simp only at hname ho hcs
    rw [normalized?, ho, hcs, hname]
    rfl

variable {m n : Model R}

/-- A model has a normal form if all its functions have one. -/
theorem exists_normalizes_of_functions
    (h : ∀ f ∈ m.functions, ∃ g, LinearFunction.normalized? f = some g) :
    ∃ n, m.Normalizes n := by
  have hnormal : ∀ f ∈ m.functions, f.normalized? = some (f.normalized?.getD f) := by
    intro f hf
    obtain ⟨g, hg⟩ := h f hf
    simp [hg]
  refine ⟨m.mapFunctions fun f => f.normalized?.getD f, rfl, ?_, ?_⟩
  · cases ho : m.objective? with
    | none => simp [mapFunctions, ho]
    | some o =>
      have hf := hnormal o.function (objective_mem_functions ho)
      simpa [mapFunctions, ho, Option.rel_some_some] using hf
  · rw [mapFunctions, List.forall₂_map_right_iff, List.forall₂_same]
    exact fun c hc => ⟨hnormal _ (function_mem_functions hc), rfl, rfl, rfl⟩

/-- The functions of the two models belong together. -/
theorem Normalizes.functions (h : m.Normalizes n) :
    List.Forall₂ (fun f g => LinearFunction.normalized? f = some g) m.functions n.functions := by
  refine List.rel_append ?_ ?_
  · have hobjective := h.objective
    cases hm : m.objective? with
    | none =>
      rw [hm] at hobjective
      cases hn : n.objective? with
      | none => exact .nil
      | some p => rw [hn] at hobjective; cases hobjective
    | some o =>
      rw [hm] at hobjective
      cases hn : n.objective? with
      | none => rw [hn] at hobjective; cases hobjective
      | some p =>
        rw [hn] at hobjective
        exact .cons (Option.rel_some_some.mp hobjective).1 .nil
  · rw [List.forall₂_map_left_iff, List.forall₂_map_right_iff]
    exact h.constraints.imp fun _ _ hcd => hcd.1

/-- Every function of a normalised model is in normal form. -/
theorem Normalizes.isNormal (h : m.Normalizes n) {g : LinearFunction R} (hg : g ∈ n.functions) :
    g.IsNormal := by
  obtain ⟨k, hk⟩ := List.mem_iff_getElem?.mp hg
  obtain ⟨f, _, hf⟩ := forall₂_getElem? h.functions.flip hk
  exact LinearFunction.isNormal_of_normalized? hf

/-- Variables of a normal form are variables of the model. -/
theorem Normalizes.mem_vars (h : m.Normalizes n) {v : Variable R} (hv : v ∈ n.vars) :
    v ∈ m.vars := by
  obtain ⟨t, ht, rfl⟩ := mem_vars_iff.mp hv
  obtain ⟨g, hg, htg⟩ := mem_terms_iff.mp ht
  obtain ⟨k, hk⟩ := List.mem_iff_getElem?.mp hg
  obtain ⟨f, hf, hfg⟩ := forall₂_getElem? h.functions.flip hk
  obtain ⟨factors, hgroup, _⟩ := LinearFunction.mem_terms_of_normalized? hfg htg
  obtain ⟨hkey, _⟩ := mem_group.mp hgroup
  rw [List.map_map] at hkey
  obtain ⟨u, hu, hvar⟩ := List.mem_map.mp hkey
  rw [← show u.var = t.var from hvar]
  exact var_mem_vars (List.mem_of_getElem? hf) (List.mem_filter.mp hu).1

/-- Normalising neither adds nor drops an objective. -/
theorem Normalizes.objective_isSome (h : m.Normalizes n) :
    n.objective?.isSome = m.objective?.isSome := by
  have hobjective := h.objective
  generalize m.objective? = o?, n.objective? = p? at hobjective
  cases hobjective with
  | some _ => rfl
  | none => rfl

theorem Normalizes.objective_eq_none (h : m.Normalizes n) (hm : m.objective? = none) :
    n.objective? = none := by
  rw [← Option.isNone_iff_eq_none, ← Option.isSome_eq_false_iff, h.objective_isSome, hm]
  rfl

/-- The objective of the normal form has the function in normal form. -/
theorem Normalizes.exists_objective (h : m.Normalizes n) {o : Objective R}
    (ho : m.objective? = some o) :
    ∃ p, n.objective? = some p ∧ o.function.normalized? = some p.function := by
  have hobjective := h.objective
  rw [ho] at hobjective
  generalize n.objective? = p? at hobjective
  cases hobjective with
  | some hop => exact ⟨_, rfl, hop.1⟩

/-- Normalising keeps the direction. -/
theorem Normalizes.optimization (h : m.Normalizes n) : n.optimization = m.optimization := by
  have hobjective := h.objective
  unfold Model.optimization
  generalize m.objective? = o?, n.objective? = p? at hobjective ⊢
  cases hobjective with
  | some hop => exact hop.2
  | none => rfl

end Model

end LinearProgram
