import Mathlib
import LinearProgram.Proofs.NormalForm
/-!
# Models that differ only in texts

`Model.SameUpToTexts` says that one model is the other with variables put in the place of
others: one for one, and declared alike.  The names of models and variables and the labels of
constraints do not occur in it.  What is computed from places and numbers alone is then the same
with the variables exchanged; here that is shown for the variables of a model (`vars_eq`), for
the normal form of its functions (`normalized?_renamed`) and for its own (`rel_normalized?`).

## How the proof goes

Variables are only ever compared with one another, so exchanging them one for one keeps what is
grouped, and the order in which it stands (`eraseDups_map`, `valuesOf_map`, `group_map`).
-/
namespace LinearProgram

/-! ## Other keys -/

section

variable {κ κ' α : Type} [DecidableEq κ] [DecidableEq κ'] {φ : κ → κ'} {s : Set κ}

theorem eraseDups_map (hφ : Set.InjOn φ s) : ∀ {ks : List κ}, (∀ k ∈ ks, k ∈ s) →
    (ks.map φ).eraseDups = ks.eraseDups.map φ
  | [], _ => by simp
  | k :: ks, h => by
    obtain ⟨hk, hks⟩ := List.forall_mem_cons.mp h
    have hfilter : (ks.map φ).filter (· ≠ φ k) = (ks.filter (· ≠ k)).map φ := by
      rw [List.filter_map]
      congr 1
      refine List.filter_congr fun j hj => ?_
      simp only [Function.comp_apply, decide_not, hφ.eq_iff (hks j hj) hk]
    have hrest : ∀ j ∈ ks.filter (· ≠ k), j ∈ s := fun j hj => hks j (List.mem_filter.mp hj).1
    rw [List.map_cons, eraseDups_cons_ne, eraseDups_cons_ne, hfilter, eraseDups_map hφ hrest,
      List.map_cons]
termination_by ks => ks.length
decreasing_by exact Nat.lt_succ_of_le (List.length_filter_le _ _)

theorem valuesOf_map (hφ : Set.InjOn φ s) {k : κ} (hk : k ∈ s) {ps : List (κ × α)}
    (h : ∀ p ∈ ps, p.1 ∈ s) :
    valuesOf (φ k) (ps.map fun p => (φ p.1, p.2)) = valuesOf k ps := by
  induction ps with
  | nil => rfl
  | cons p ps ih =>
    obtain ⟨hp, hps⟩ := List.forall_mem_cons.mp h
    rw [List.map_cons, valuesOf_cons, valuesOf_cons, ih hps]
    simp only [hφ.eq_iff hp hk]

/-- Exchanging the keys one for one exchanges those of the groups. -/
theorem group_map (hφ : Set.InjOn φ s) {ps : List (κ × α)} (h : ∀ p ∈ ps, p.1 ∈ s) :
    group (ps.map fun p => (φ p.1, p.2)) = (group ps).map fun g => (φ g.1, g.2) := by
  have hkeys : (ps.map fun p => (φ p.1, p.2)).map (·.1) = (ps.map (·.1)).map φ := by
    rw [List.map_map, List.map_map]
    rfl
  have hmem : ∀ k ∈ ps.map (·.1), k ∈ s := List.forall_mem_map.mpr h
  rw [group, hkeys, eraseDups_map hφ hmem, group, List.map_map, List.map_map]
  refine List.map_congr_left fun k hk => ?_
  simp only [Function.comp_apply, valuesOf_map hφ (hmem k (List.mem_eraseDups.mp hk)) h]

theorem idxOf_map (hφ : Set.InjOn φ s) {k : κ} (hk : k ∈ s) {ks : List κ}
    (h : ∀ j ∈ ks, j ∈ s) : (ks.map φ).idxOf (φ k) = ks.idxOf k := by
  induction ks with
  | nil => rfl
  | cons j ks ih =>
    obtain ⟨hj, hks⟩ := List.forall_mem_cons.mp h
    have heq : (φ j == φ k) = (j == k) := by
      rw [Bool.eq_iff_iff, beq_iff_eq, beq_iff_eq, hφ.eq_iff hj hk]
    rw [List.map_cons, List.idxOf_cons, List.idxOf_cons, heq, ih hks]

end

/-- A traversal of other elements, whose single answers are other ones, answers with those. -/
theorem mapM_map_eq {α α' β β' : Type} {f : α → Option β} {f' : α' → Option β'} {g : α → α'}
    {h : β → β'} {xs : List α} (heq : ∀ a ∈ xs, f' (g a) = (f a).map h) :
    (xs.map g).mapM f' = (xs.mapM f).map (List.map h) := by
  induction xs with
  | nil => rfl
  | cons a xs ih =>
    obtain ⟨ha, hxs⟩ := List.forall_mem_cons.mp heq
    rw [List.map_cons, List.mapM_cons, List.mapM_cons, ih hxs, ha]
    cases f a with
    | none => rfl
    | some b => cases xs.mapM f <;> rfl

/-! ## Other variables -/

variable {R : Type} {φ : Variable R → Variable R}

/-- The term with another variable. -/
def Term.renamed (φ : Variable R → Variable R) (t : Term R) : Term R :=
  ⟨φ t.var, t.factor⟩

/-- The function with other variables. -/
def LinearFunction.renamed (φ : Variable R → Variable R) (f : LinearFunction R) :
    LinearFunction R :=
  ⟨f.terms.map (·.renamed φ), f.constant⟩

/-- The constraint with other variables. -/
def Constraint.renamed (φ : Variable R → Variable R) (c : Constraint R) : Constraint R :=
  { c with function := c.function.renamed φ }

/-- The objective with other variables. -/
def Objective.renamed (φ : Variable R → Variable R) (o : Objective R) : Objective R :=
  { o with function := o.function.renamed φ }

section

variable [Scalar R] [DecidableEq R] {s : Set (Variable R)} {f : LinearFunction R}

theorem LinearFunction.groups_renamed (hφ : Set.InjOn φ s) (h : ∀ t ∈ f.terms, t.var ∈ s) :
    (f.renamed φ).groups = f.groups.map fun g => (φ g.1, g.2) := by
  have hpairs : ((f.renamed φ).nonzeroTerms.map fun t => (t.var, t.factor))
      = (f.nonzeroTerms.map fun t => (t.var, t.factor)).map fun p => (φ p.1, p.2) := by
    simp only [nonzeroTerms, renamed, List.filter_map, List.map_map]
    rfl
  have hmem : ∀ p ∈ f.nonzeroTerms.map fun t => (t.var, t.factor), p.1 ∈ s :=
    List.forall_mem_map.mpr fun t ht => h t (List.mem_filter.mp ht).1
  rw [groups, hpairs, group_map hφ hmem]
  rfl

/-- The term of a group. -/
def LinearFunction.termOf? (g : Variable R × List (Number R)) : Option (Term R) :=
  (combined? g.2).map (⟨g.1, ·⟩)

theorem LinearFunction.merged?_eq (f : LinearFunction R) :
    f.merged? = (f.groups.mapM termOf?).map fun ts =>
      ⟨ts.filter (!·.factor.isZero), f.constant⟩ := by
  have hterm : (fun g : Variable R × List (Number R) =>
      (do return (⟨g.1, ← combined? g.2⟩ : Term R) : Option (Term R))) = termOf? := by
    funext g
    rw [termOf?]
    cases combined? g.2 <;> rfl
  rw [merged?, hterm]
  cases f.groups.mapM termOf? <;> rfl

/-- **The normal form of a function with other variables** is its normal form with the other
variables. -/
theorem LinearFunction.normalized?_renamed (hφ : Set.InjOn φ s) (h : ∀ t ∈ f.terms, t.var ∈ s) :
    (f.renamed φ).normalized? = f.normalized?.map (·.renamed φ) := by
  have hterm : ∀ g ∈ f.groups, termOf? (φ g.1, g.2) = (termOf? g).map (·.renamed φ) := by
    intro g _
    rw [termOf?, termOf?]
    cases combined? g.2 <;> rfl
  have hfilter : ∀ ts : List (Term R), (ts.map (·.renamed φ)).filter (fun t => !t.factor.isZero)
      = (ts.filter fun t => !t.factor.isZero).map (·.renamed φ) := by
    intro ts
    rw [List.filter_map]
    rfl
  rw [normalized?_eq_merged?, normalized?_eq_merged?, merged?_eq, merged?_eq, groups_renamed hφ h,
    mapM_map_eq hterm, Option.map_map, Option.map_map]
  congr 1
  funext ts
  simp only [Function.comp_apply, hfilter]
  rfl

end

/-! ## Models -/

namespace Model

variable [DecidableEq R]

/-- The second model has other variables in the places of those of the first one: one for one,
and declared alike.  Names and labels may be any. -/
structure SameUpToTexts (φ : Variable R → Variable R) (m n : Model R) : Prop where
  injOn : Set.InjOn φ {v | v ∈ m.vars}
  domain : ∀ v ∈ m.vars, (φ v).domain = v.domain
  minimum : ∀ v ∈ m.vars, (φ v).minimum? = v.minimum?
  maximum : ∀ v ∈ m.vars, (φ v).maximum? = v.maximum?
  objective : n.objective? = m.objective?.map (·.renamed φ)
  constraints : n.constraints.map (·.constraint) = m.constraints.map (·.constraint.renamed φ)

variable {m n : Model R}

theorem SameUpToTexts.terms_eq (h : m.SameUpToTexts φ n) :
    n.terms = m.terms.map (·.renamed φ) := by
  have hconstraints : n.constraints.map (·.constraint.function)
      = (m.constraints.map (·.constraint.function)).map (·.renamed φ) := by
    have hmap := congrArg (List.map (·.function)) h.constraints
    rw [List.map_map, List.map_map] at hmap
    rw [List.map_map]
    exact hmap
  have hobjective : (n.objective?.map (·.function)).toList
      = (m.objective?.map (·.function)).toList.map (·.renamed φ) := by
    rw [h.objective]
    cases m.objective? <;> rfl
  have hfunctions : n.functions = m.functions.map (·.renamed φ) := by
    rw [functions, functions, List.map_append, hobjective, hconstraints]
  rw [terms, terms, hfunctions, List.flatMap_map, List.map_flatMap]
  rfl

theorem SameUpToTexts.vars_eq (h : m.SameUpToTexts φ n) : n.vars = m.vars.map φ := by
  have hkeys : n.terms.map (·.var) = (m.terms.map (·.var)).map φ := by
    rw [h.terms_eq, List.map_map, List.map_map]
    rfl
  rw [vars, hkeys, eraseDups_map h.injOn fun v hv => List.mem_eraseDups.mpr hv, vars]

theorem SameUpToTexts.optimization_eq (h : m.SameUpToTexts φ n) :
    n.optimization = m.optimization := by
  rw [optimization, optimization, h.objective]
  cases m.objective? <;> rfl

theorem SameUpToTexts.isIntegral_eq (h : m.SameUpToTexts φ n) {v : Variable R}
    (hv : v ∈ m.vars) : (φ v).isIntegral = v.isIntegral := by
  rw [Variable.isIntegral, Variable.isIntegral, h.domain v hv]

variable [Scalar R]

/-- Constraints are normalised without regard to their labels. -/
theorem mapM_normalized?_constraint (cs : List (LabeledConstraint R)) :
    (cs.map (·.constraint)).mapM Constraint.normalized?
      = (cs.mapM fun c => (do return { c with constraint := ← c.constraint.normalized? } :
          Option (LabeledConstraint R))).map (List.map (·.constraint)) := by
  refine mapM_map_eq fun c _ => ?_
  cases c.constraint.normalized? <;> simp

theorem SameUpToTexts.mapM_constraints_eq (h : m.SameUpToTexts φ n) :
    (n.constraints.map (·.constraint)).mapM Constraint.normalized?
      = ((m.constraints.map (·.constraint)).mapM Constraint.normalized?).map
          (List.map (·.renamed φ)) := by
  have hone : ∀ c ∈ m.constraints.map (·.constraint),
      (c.renamed φ).normalized? = c.normalized?.map (·.renamed φ) := by
    intro c hc
    obtain ⟨d, hd, rfl⟩ := List.mem_map.mp hc
    have hvars : ∀ t ∈ d.constraint.function.terms, t.var ∈ {v | v ∈ m.vars} := fun t ht =>
      var_mem_vars (function_mem_functions hd) ht
    rw [Constraint.normalized?, Constraint.normalized?, Constraint.renamed,
      LinearFunction.normalized?_renamed h.injOn hvars, Option.map_map, Option.map_map]
    rfl
  have hlist : n.constraints.map (·.constraint)
      = (m.constraints.map (·.constraint)).map (·.renamed φ) := by
    rw [h.constraints, List.map_map]
    rfl
  rw [hlist, mapM_map_eq hone]

theorem SameUpToTexts.mapM_objective_eq (h : m.SameUpToTexts φ n) :
    n.objective?.mapM Objective.normalized?
      = (m.objective?.mapM Objective.normalized?).map (Option.map (·.renamed φ)) := by
  rw [h.objective]
  cases ho : m.objective? with
  | none => rfl
  | some o =>
    have hvars : ∀ t ∈ o.function.terms, t.var ∈ {v | v ∈ m.vars} := fun t ht =>
      var_mem_vars (objective_mem_functions ho) ht
    have hone : (o.renamed φ).normalized? = o.normalized?.map (·.renamed φ) := by
      rw [Objective.normalized?, Objective.normalized?, Objective.renamed,
        LinearFunction.normalized?_renamed h.injOn hvars, Option.map_map, Option.map_map]
      rfl
    simp only [Option.map_some, Option.mapM_some, hone]
    cases o.normalized? <;> rfl

/-- A model in normal form keeps what it has in common with another one. -/
theorem SameUpToTexts.of_normalizes (h : m.SameUpToTexts φ n) {m' n' : Model R}
    (hm : m.Normalizes m') (hobjective : n'.objective? = m'.objective?.map (·.renamed φ))
    (hconstraints : n'.constraints.map (·.constraint)
      = m'.constraints.map (·.constraint.renamed φ)) : m'.SameUpToTexts φ n' where
  injOn := h.injOn.mono fun _ hv => hm.mem_vars hv
  domain v hv := h.domain v (hm.mem_vars hv)
  minimum v hv := h.minimum v (hm.mem_vars hv)
  maximum v hv := h.maximum v (hm.mem_vars hv)
  objective := hobjective
  constraints := hconstraints

/-- **Models that differ only in texts have normal forms that differ only in texts**, and one
of them has a normal form if the other has. -/
theorem SameUpToTexts.rel_normalized? (h : m.SameUpToTexts φ n) :
    Option.Rel (SameUpToTexts φ) m.normalized? n.normalized? := by
  have hobjective := h.mapM_objective_eq
  have hconstraints := h.mapM_constraints_eq
  rw [mapM_normalized?_constraint, mapM_normalized?_constraint, Option.map_map] at hconstraints
  have hnormal : ∀ m', m.normalized? = some m' → m.Normalizes m' := fun _ =>
    normalized?_eq_some_iff.mp
  unfold normalized? at hnormal ⊢
  rw [hobjective]
  cases ho : m.objective?.mapM Objective.normalized? with
  | none => exact .none
  | some o? =>
    rw [ho] at hnormal
    cases hcs : m.constraints.mapM fun c => (do
        return { c with constraint := ← c.constraint.normalized? } :
          Option (LabeledConstraint R)) with
    | none =>
      rw [hcs] at hconstraints
      rw [Option.map_eq_none_iff.mp hconstraints]
      exact .none
    | some cs =>
      rw [hcs] at hconstraints hnormal
      obtain ⟨ds, hds, hlist⟩ := Option.map_eq_some_iff.mp hconstraints
      rw [hds]
      refine .some (h.of_normalizes (hnormal _ rfl) rfl ?_)
      rw [hlist]
      exact List.map_map

end Model

end LinearProgram
