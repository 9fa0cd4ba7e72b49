import Mathlib
import LinearProgram.Proofs.TextIndependence
import LinearProgram.Service
/-!
# Models whose variables differ in identity only

A variable is told apart from others by its identity, and by nothing else is the identity used.  So
when each variable is replaced by one that is the same but for its identity, and different ones by
different ones (`SameUpToIdentity`), nothing that is made of the model or read about it changes:
`SameUpToIdentity.actsAlike`.  With the variables told apart by their columns the two models are
one (`numbered_eq`).
-/
namespace LinearProgram

/-- Both models are written, checked, handed to an engine and read about in the same way. -/
structure ActsAlike (m n : Model Float) : Prop where
  lines : Mps.fileLines n = Mps.fileLines m
  issues : n.violations.map Service.issue = m.violations.map Service.issue
  program : ∀ available, (InProcess.Program.ofModel? available n).map InProcess.Program.handed
    = (InProcess.Program.ofModel? available m).map InProcess.Program.handed
  solution : ∀ text, Cbc.readSolution text n = Cbc.readSolution text m
  /-- Told apart by columns, the variables are the same. -/
  numbered : n.numbered = m.numbered

/-! ## One variable -/

/-- The variable with another identity. -/
def Variable.withId {R : Type} (v : Variable R) (id : Nat) : Variable R :=
  { v with id := id }

theorem Variable.map_issue_violations (v : Variable Float) (id : Nat) :
    (v.withId id).violations.map Service.issue = v.violations.map Service.issue := by
  have hreserved : (v.withId id).hasReservedCharacter = v.hasReservedCharacter := rfl
  have hbounds : (v.withId id).hasInvalidBounds = v.hasInvalidBounds := rfl
  have hname : (v.withId id).name = v.name := rfl
  rw [violations, violations, hreserved, hbounds, hname, List.map_append, List.map_append]
  congr 1
  · split_ifs <;> rfl
  · split_ifs <;> rfl

/-! ## Models -/

namespace Model

variable {R : Type} [DecidableEq R]

/-- The second model has other variables in the places of those of the first one, which differ
from these in identity only. -/
structure SameUpToIdentity (φ : Variable R → Variable R) (m n : Model R) : Prop where
  name : n.name = m.name
  injOn : Set.InjOn φ {v | v ∈ m.vars}
  alike : ∀ v ∈ m.vars, ∃ id, φ v = v.withId id
  objective : n.objective? = m.objective?.map (·.renamed φ)
  constraints : n.constraints = m.constraints.map fun c =>
    { c with constraint := c.constraint.renamed φ }

namespace SameUpToIdentity

variable {φ : Variable R → Variable R} {m n : Model R}

theorem apply_eq (h : m.SameUpToIdentity φ n) {v : Variable R} (hv : v ∈ m.vars) {α : Type}
    {f : Variable R → α} (hf : ∀ id, f (v.withId id) = f v) : f (φ v) = f v := by
  obtain ⟨id, hid⟩ := h.alike v hv
  rw [hid, hf]

theorem sameUpToTexts (h : m.SameUpToIdentity φ n) : m.SameUpToTexts φ n where
  injOn := h.injOn
  domain _ hv := h.apply_eq hv fun _ => rfl
  minimum _ hv := h.apply_eq hv fun _ => rfl
  maximum _ hv := h.apply_eq hv fun _ => rfl
  objective := h.objective
  constraints := by
    rw [h.constraints, List.map_map]
    rfl

theorem name_eq (h : m.SameUpToIdentity φ n) {v : Variable R} (hv : v ∈ m.vars) :
    (φ v).name = v.name :=
  h.apply_eq hv fun _ => rfl

theorem labels_eq (h : m.SameUpToIdentity φ n) :
    n.constraints.map (·.label?) = m.constraints.map (·.label?) := by
  rw [h.constraints, List.map_map]
  rfl

theorem mapFunctions_eq (h : m.SameUpToIdentity φ n) {f g : LinearFunction R → LinearFunction R}
    (hfg : ∀ k ∈ m.functions, f (k.renamed φ) = g k) : n.mapFunctions f = m.mapFunctions g := by
  have hconstraint : ∀ c ∈ m.constraints,
      f (c.constraint.function.renamed φ) = g c.constraint.function := fun c hc =>
    hfg _ (function_mem_functions hc)
  rw [mapFunctions, mapFunctions, Model.mk.injEq, h.objective, h.constraints, Option.map_map,
    List.map_map]
  refine ⟨h.name, Option.map_congr fun o ho => ?_, List.map_congr_left fun c hc => ?_⟩
  · simp only [Function.comp_apply, Objective.renamed, hfg _ (objective_mem_functions ho)]
  · simp only [Function.comp_apply, Constraint.renamed, hconstraint c hc]

/-- **The variables told apart by their columns are the same.** -/
theorem numbered_eq (h : m.SameUpToIdentity φ n) : n.numbered = m.numbered := by
  have hvar : ∀ v ∈ m.vars,
      (φ v).withId (n.vars.idxOf (φ v)) = v.withId (m.vars.idxOf v) := by
    intro v hv
    obtain ⟨id, hid⟩ := h.alike v hv
    rw [h.sameUpToTexts.vars_eq, idxOf_map h.injOn hv fun _ hw => hw, hid]
    rfl
  unfold numbered
  refine h.mapFunctions_eq fun f hf => ?_
  simp only [LinearFunction.renamed, List.map_map, LinearFunction.mk.injEq, and_true]
  refine List.map_congr_left fun t ht => ?_
  exact congrArg (fun v => (⟨v, t.factor⟩ : Term R)) (hvar t.var (var_mem_vars hf ht))

end SameUpToIdentity

end Model

/-! ## What is read and reported -/

section

variable {φ : Variable Float → Variable Float}

theorem map_issue_variableViolations {vs : List (Variable Float)}
    (halike : ∀ v ∈ vs, ∃ id, φ v = v.withId id) (taken : List Text) :
    (variableViolations taken (vs.map φ)).map Service.issue =
      (variableViolations taken vs).map Service.issue := by
  induction vs generalizing taken with
  | nil => rfl
  | cons v vs ih =>
    obtain ⟨hv, hvs⟩ := List.forall_mem_cons.mp halike
    obtain ⟨id, hid⟩ := hv
    have hname : (v.withId id).name = v.name := rfl
    rw [List.map_cons, hid, variableViolations, variableViolations, List.map_append,
      List.map_append, v.map_issue_violations, hname]
    congr 1
    split_ifs
    · exact ih hvs taken
    · rw [List.map_cons, List.map_cons, ih hvs taken]
      rfl
    · exact ih hvs _

theorem resolve_map {columns : List (Variable Float)}
    (hname : ∀ v ∈ columns, (φ v).name = v.name) (b : Cbc.Binding) :
    b.resolve (columns.map φ) = b.resolve columns := by
  rw [Cbc.Binding.resolve, Cbc.Binding.resolve, Cbc.atPosition?, Cbc.atPosition?]
  split_ifs
  · rfl
  · rw [List.getElem?_map, Option.map_map]
    refine Option.map_congr fun v hv => ?_
    rw [Function.comp_apply, hname v (List.mem_of_getElem? hv)]

variable {m n : Model Float}

namespace Model

/-- **Nothing depends on identities** but which variables are the same. -/
theorem SameUpToIdentity.actsAlike (h : m.SameUpToIdentity φ n) : ActsAlike m n where
  lines := Mps.fileLines_eq h.sameUpToTexts
  issues := by
    rw [violations, violations, h.name, h.labels_eq, h.sameUpToTexts.vars_eq, List.map_append,
      List.map_append, List.map_append, List.map_append, map_issue_variableViolations h.alike]
  program := InProcess.map_handed_eq h.sameUpToTexts
  solution text := by
    rw [Cbc.readSolution, Cbc.readSolution, h.sameUpToTexts.vars_eq]
    simp only [resolve_map fun v hv => h.name_eq hv]
  numbered := h.numbered_eq

end Model

end

end LinearProgram
