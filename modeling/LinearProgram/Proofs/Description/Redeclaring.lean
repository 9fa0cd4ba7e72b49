import Mathlib
import LinearProgram.Proofs.Description.Sharing
import LinearProgram.Proofs.Identities
/-!
# The order of declarations does not matter

`Redeclares` says that a description becomes another one when its declarations are put in another
order, when declarations with new names that no term uses are added, and when declarations that no
term uses are left out.  The main statement, `Redeclares.exists_actsAlike`, is that the other one
stands for a model too, which acts like that of the first.

## How the proof goes

Each step keeps the declarations of the names that are used (`SameUse`).  A term gets its variable
by name, so in the other description it gets the one that is declared there under the same name
(`counterpart`), which has another place among the declarations and thus another identity, but is
the same otherwise.
-/
namespace LinearProgram.Description

/-! ## Other declarations -/

/-- The second description has the declarations in another order, or more or fewer of those that
no term needs. -/
inductive Redeclares : Model → Model → Prop where
  | permuted {d : Model} {vs : List Variable} (h : vs.Perm d.declarations) :
    Redeclares d { d with declarations := vs }
  | inserted {d : Model} {before after : List Variable} {v : Variable}
    (h : d.declarations = before ++ after) (hfresh : v.name ∉ d.names)
    (hunused : v.name ∉ d.usedNames) :
    Redeclares d { d with declarations := before ++ v :: after }
  | removed {d : Model} {before after : List Variable} {v : Variable}
    (h : d.declarations = before ++ v :: after) (hunused : v.name ∉ d.usedNames) :
    Redeclares d { d with declarations := before ++ after }
  | trans {c d e : Model} : Redeclares c d → Redeclares d e → Redeclares c e

/-- The descriptions differ in declarations only, and not in those of names that are used. -/
structure SameUse (d e : Model) : Prop where
  name : e.name = d.name
  objective : e.objective? = d.objective?
  constraints : e.constraints = d.constraints
  nodup : d.names.Nodup → e.names.Nodup
  declared : ∀ v ∈ d.declarations, v.name ∈ d.usedNames → v ∈ e.declarations

theorem SameUse.usedNames_eq {d e : Model} (h : SameUse d e) : e.usedNames = d.usedNames := by
  rw [Model.usedNames, Model.usedNames, Model.references, Model.references, h.objective,
    h.constraints]

theorem Redeclares.sameUse {d e : Model} (h : Redeclares d e) : SameUse d e := by
  induction h with
  | permuted h =>
    refine ⟨rfl, rfl, rfl, fun hnodup => ?_, fun v hv _ => h.mem_iff.mpr hv⟩
    exact (h.map _).nodup_iff.mpr hnodup
  | @inserted d before after v h hfresh _ =>
    refine ⟨rfl, rfl, rfl, fun hnodup => ?_, fun w hw _ => ?_⟩
    · rw [Model.names, h, List.map_append] at hnodup hfresh
      rw [Model.names, List.map_append, List.map_cons, List.nodup_middle, List.nodup_cons]
      exact ⟨hfresh, hnodup⟩
    · rw [h, List.mem_append] at hw
      exact List.mem_append.mpr (hw.imp_right (List.mem_cons_of_mem v))
  | @removed d before after v h hunused =>
    refine ⟨rfl, rfl, rfl, fun hnodup => ?_, fun w hw hused => ?_⟩
    · rw [Model.names, h, List.map_append, List.map_cons, List.nodup_middle] at hnodup
      rw [Model.names, List.map_append]
      exact (List.nodup_cons.mp hnodup).2
    · have hne : w ≠ v := fun heq => hunused (heq ▸ hused)
      rw [h, List.mem_append, List.mem_cons] at hw
      exact List.mem_append.mpr (hw.imp_right fun hw => hw.resolve_left hne)
  | trans _ _ h h' =>
    refine ⟨h'.name.trans h.name, h'.objective.trans h.objective,
      h'.constraints.trans h.constraints, fun hnodup => h'.nodup (h.nodup hnodup), ?_⟩
    exact fun v hv hused => h'.declared v (h.declared v hv hused) (h.usedNames_eq ▸ hused)

/-! ## The variable of a name in another description -/

theorem find?_name_eq_some_iff {declared : List (LinearProgram.Variable Float)}
    (h : (declared.map (·.name)).Nodup) {name : Text} {x : LinearProgram.Variable Float} :
    declared.find? (·.name = name) = some x ↔ x ∈ declared ∧ x.name = name := by
  constructor
  · exact fun hx => ⟨List.mem_of_find?_eq_some hx, name_eq_of_find? hx⟩
  · rintro ⟨hx, rfl⟩
    cases hfind : declared.find? (·.name = x.name) with
    | none =>
      have hne : ∀ y ∈ declared, y.name ≠ x.name := by simpa using hfind
      exact absurd rfl (hne x hx)
    | some y =>
      have hy := List.mem_of_find?_eq_some hfind
      rw [List.inj_on_of_nodup_map h hy hx (name_eq_of_find? hfind)]

/-- The variable that another description declares under the name of a variable. -/
def counterpart (e : Model) (x : LinearProgram.Variable Float) : LinearProgram.Variable Float :=
  (e.declared.find? (·.name = x.name)).getD x

theorem Variable.withId_declared (v : Variable) (i j : Nat) :
    (v.declared i).withId j = v.declared j := by
  obtain ⟨name, domain, lo?, hi?⟩ := v
  cases domain <;> rfl

variable {d e : Model} {m : LinearProgram.Model Float}

/-- It is found, and differs in identity only. -/
theorem SameUse.find?_declared (h : SameUse d e) (hnodup : d.names.Nodup)
    {x : LinearProgram.Variable Float} (hx : x ∈ d.declared) (hused : x.name ∈ d.usedNames) :
    e.declared.find? (·.name = x.name) = some (counterpart e x) ∧
      ∃ id, counterpart e x = x.withId id := by
  -- The declaration of the variable is used, so it is there, at some place `i`.
  obtain ⟨v, hv, hxv⟩ := mem_declared_iff.mp hx
  have hname : v.name = x.name := by
    rw [hxv]
    exact (v.declares_declared x.id).name.symm
  have hmem : v ∈ e.declarations :=
    h.declared v (List.mem_of_getElem? hv) (hname.symm ▸ hused)
  obtain ⟨i, hi⟩ := List.mem_iff_getElem?.mp hmem
  have hfind : e.declared.find? (·.name = x.name) = some (v.declared i) := by
    have hdistinct : (e.declared.map (·.name)).Nodup := by
      rw [map_name_declared]
      exact h.nodup hnodup
    rw [find?_name_eq_some_iff hdistinct, mem_declared_iff, v.id_declared]
    exact ⟨⟨v, hi, rfl⟩, (v.declares_declared i).name.trans hname⟩
  have hcounterpart : counterpart e x = v.declared i := by rw [counterpart, hfind, Option.getD_some]
  refine ⟨by rw [hcounterpart, hfind], i, ?_⟩
  rw [hcounterpart, hxv, v.withId_declared]

/-- A function becomes the same one over the counterparts. -/
theorem SameUse.toFunction_renamed (h : SameUse d e) (hnodup : d.names.Nodup) {f : Function}
    (hf : f ∈ d.functions) {place : Place} {g : LinearFunction Float}
    (hg : f.toFunction d.declared place = .ok g) :
    f.toFunction e.declared place = .ok (g.renamed (counterpart e)) := by
  have hused : ∀ s ∈ f.terms, s.variableName ∈ d.usedNames := by
    intro s hs
    rw [Model.usedNames_eq]
    exact List.mem_flatMap.mpr ⟨f, hf, List.mem_map.mpr ⟨s, hs, rfl⟩⟩
  obtain ⟨hterms, hconstant⟩ := toFunction_eq_ok_iff.mp hg
  refine toFunction_eq_ok_iff.mpr ⟨?_, hconstant⟩
  rw [LinearFunction.renamed, List.forall₂_map_right_iff]
  refine ((List.forall₂_and_left _ _).mpr ⟨hused, hterms⟩).imp fun s t hst => ?_
  obtain ⟨hs, hfind, hfactor⟩ := hst
  have hname := name_eq_of_find? hfind
  have hfound := h.find?_declared hnodup (List.mem_of_find?_eq_some hfind) (hname.symm ▸ hs)
  rw [hname] at hfound
  exact ⟨hfound.1, hfactor⟩

/-- The model with the counterparts in the places of its variables. -/
def redeclared (e : Model) (m : LinearProgram.Model Float) : LinearProgram.Model Float :=
  { m with
    objective? := m.objective?.map (·.renamed (counterpart e))
    constraints := m.constraints.map fun c =>
      { c with constraint := c.constraint.renamed (counterpart e) } }

theorem SameUse.toModel_redeclared (h : SameUse d e) (hm : d.toModel = .ok m) :
    e.toModel = .ok (redeclared e m) := by
  obtain ⟨hnodup, hname, hobjective, hconstraints⟩ := toModel_eq_ok_iff.mp hm
  refine toModel_eq_ok_iff.mpr ⟨h.nodup hnodup, hname.trans h.name.symm, ?_, ?_⟩
  · rw [h.objective]
    have hf : ∀ o ∈ d.objective?, o.function ∈ d.functions := fun o ho =>
      List.mem_append_left _ (by simp [Option.mem_def.mp ho])
    simp only [redeclared]
    generalize d.objective? = o?, m.objective? = p? at hobjective hf ⊢
    cases hobjective with
    | none => exact .none
    | some hop => exact .some ⟨h.toFunction_renamed hnodup (hf _ rfl) hop.1, hop.2⟩
  · have hf : ∀ p ∈ d.constraints.zipIdx, p.1.function ∈ d.functions := fun p hp =>
      List.mem_append_right _ (List.mem_map.mpr ⟨p.1, List.fst_mem_of_mem_zipIdx hp, rfl⟩)
    rw [h.constraints, redeclared, List.forall₂_map_right_iff]
    refine ((List.forall₂_and_left _ _).mpr ⟨hf, hconstraints⟩).imp fun p c hpc => ?_
    obtain ⟨hp, hpc⟩ := hpc
    obtain ⟨hfunction, hrest⟩ := toConstraint_eq_ok_iff.mp hpc
    exact toConstraint_eq_ok_iff.mpr ⟨h.toFunction_renamed hnodup hp hfunction, hrest⟩

theorem SameUse.sameUpToIdentity (h : SameUse d e) (hm : d.toModel = .ok m) :
    m.SameUpToIdentity (counterpart e) (redeclared e m) := by
  have hnodup : d.names.Nodup := (toModel_eq_ok_iff.mp hm).1
  have halike : ∀ x ∈ m.vars, ∃ id, counterpart e x = x.withId id := by
    intro x hx
    obtain ⟨t, ht, rfl⟩ := LinearProgram.Model.mem_vars_iff.mp hx
    refine (h.find?_declared hnodup (mem_declared_of_mem_terms hm ht) ?_).2
    rw [← map_name_terms hm]
    exact List.mem_map.mpr ⟨t, ht, rfl⟩
  refine ⟨rfl, fun x hx y hy hxy => ?_, halike, rfl, rfl⟩
  -- A counterpart has the name of its variable, and names tell variables of a model apart.
  obtain ⟨i, hi⟩ := halike x hx
  obtain ⟨j, hj⟩ := halike y hy
  have hname : x.name = y.name := congrArg (·.name) (hi.symm.trans (hxy.trans hj))
  exact List.inj_on_of_nodup_map (nodup_names_of_toModel hm) hx hy hname

/-- **The order of declarations and unused declarations are irrelevant**: the other description
stands for a model that acts alike. -/
theorem Redeclares.exists_actsAlike (h : Redeclares d e) (hm : d.toModel = .ok m) :
    ∃ n, e.toModel = .ok n ∧ ActsAlike m n :=
  ⟨redeclared e m, h.sameUse.toModel_redeclared hm, (h.sameUse.sameUpToIdentity hm).actsAlike⟩

def invalidDeclaration : Variable :=
  ⟨Text.ofString "invalid", .real, some 2.0, some 1.0⟩

/-- The description with its declarations in another order, without the unused one, and with a new
one that has bounds in the wrong order. -/
def shuffledDescription : Model where
  name := sharedDescription.name
  declarations := [declaredY, invalidDeclaration, declaredB, declaredX]
  objective? := sharedDescription.objective?
  constraints := sharedDescription.constraints

theorem exists_actsAlike_shuffledDescription :
    Redeclares sharedDescription shuffledDescription ∧
      sharedDescription.toModel = .ok sharedModel ∧
      ∃ n, shuffledDescription.toModel = .ok n ∧ ActsAlike sharedModel n := by
  have hpermuted : Redeclares sharedDescription { sharedDescription with
      declarations := [declaredY] ++ unusedDeclaration :: [declaredB, declaredX] } :=
    .permuted (by decide +kernel)
  have hremoved : Redeclares sharedDescription { sharedDescription with
      declarations := [declaredY] ++ [declaredB, declaredX] } :=
    hpermuted.trans (.removed rfl (by decide +kernel))
  have hinserted : Redeclares sharedDescription { sharedDescription with
      declarations := [declaredY] ++ invalidDeclaration :: [declaredB, declaredX] } :=
    hremoved.trans (.inserted rfl (by decide +kernel) (by decide +kernel))
  have hmodel : sharedDescription.toModel = .ok sharedModel :=
    eq_ok_of_toOption (by decide +kernel)
  exact ⟨hinserted, hmodel, hinserted.exists_actsAlike hmodel⟩

end LinearProgram.Description
