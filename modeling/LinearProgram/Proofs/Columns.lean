import Mathlib
import LinearProgram.Proofs.Site
/-!
# The columns of a model

The position of a variable in `Model.vars` is its column.  The variables are listed once each, in
the order in which a pass over the model meets them, the objective first: `Model.IsIndex`.
Constraints that are added to a model come last in this pass, so they only add columns, and no
variable changes its column (`vars_isStableIndex`).

## How the proof goes

Erasing repetitions is a pass that notes down what it has not met (`eraseDups_append_eq_foldl`).
A step of it leaves the notes as they are or adds to their end (`prefix_noted`), and hence so does
a run (`prefix_foldl_noted`).
-/
namespace LinearProgram

/-! ## Noting down what is new -/

section

variable {κ : Type} [DecidableEq κ]

/-- The notes after one more element was met: a new one goes to the end. -/
def noted (seen : List κ) (k : κ) : List κ :=
  if k ∈ seen then seen else seen ++ [k]

/-- A step changes nothing that was noted. -/
theorem prefix_noted (seen : List κ) (k : κ) : seen <+: noted seen k := by
  unfold noted
  split_ifs
  · exact List.prefix_rfl
  · exact List.prefix_append ..

/-- A run changes nothing that was noted. -/
theorem prefix_foldl_noted (ks seen : List κ) : seen <+: ks.foldl noted seen := by
  induction ks generalizing seen with
  | nil => exact List.prefix_rfl
  | cons k ks ih => exact (prefix_noted seen k).trans (ih _)

theorem eraseDups_concat (ks : List κ) (k : κ) :
    (ks ++ [k]).eraseDups = noted ks.eraseDups k := by
  rw [List.eraseDups_append, noted]
  by_cases hk : k ∈ ks
  · have hold : [k].removeAll ks = [] := by simp [List.removeAll, hk]
    rw [hold, if_pos (List.mem_eraseDups.mpr hk), List.eraseDups_nil, List.append_nil]
  · have hnew : [k].removeAll ks = [k] := by simp [List.removeAll, hk]
    rw [hnew, if_neg (mt List.mem_eraseDups.mp hk), eraseDups_of_nodup (List.nodup_singleton k)]

/-- **Erasing repetitions is noting down what is new.** -/
theorem eraseDups_append_eq_foldl (ks js : List κ) :
    (ks ++ js).eraseDups = js.foldl noted ks.eraseDups := by
  induction js generalizing ks with
  | nil => rw [List.append_nil, List.foldl_nil]
  | cons j js ih => rw [List.append_cons, ih, eraseDups_concat, List.foldl_cons]

/-- What comes first in a list without repetition stands where it stands in the list. -/
theorem idxOf_eq_of_prefix {xs ys : List κ} (h : xs <+: ys) {k : κ} (hk : k ∈ xs) :
    ys.idxOf k = xs.idxOf k := by
  obtain ⟨zs, rfl⟩ := h
  exact List.idxOf_append_of_mem hk

end

/-! ## The variables of a model -/

namespace Model

variable {R : Type}

/-- The model with more constraints after its own. -/
def extended (m : Model R) (cs : List (LabeledConstraint R)) : Model R :=
  { m with constraints := m.constraints ++ cs }

theorem terms_extended (m : Model R) (cs : List (LabeledConstraint R)) :
    (m.extended cs).terms = m.terms ++ cs.flatMap (·.constraint.function.terms) := by
  simp [extended, terms, functions, List.flatMap_map]

theorem terms_eq (m : Model R) :
    m.terms = (m.objectiveRow ++ m.constraintRows).flatMap (·.2.terms) := by
  have hconstraints : m.constraints.map (·.constraint.function) = m.constraintRows.map (·.2) := by
    rw [constraintRows, List.map_map]
    conv_lhs => rw [← List.zipIdx_map_fst 0 m.constraints, List.map_map]
    rfl
  have hobjective : (m.objective?.map (·.function)).toList = m.objectiveRow.map (·.2) := by
    rw [objectiveRow]
    cases m.objective? <;> rfl
  rw [terms, functions, hconstraints, hobjective, ← List.map_append, List.flatMap_map]

variable [DecidableEq R]

/-- A list of the variables of a model: each that a term has is there once, the factor does not
matter, and they stand in the order of their first terms, those of the objective before those of
the constraints. -/
structure IsIndex (m : Model R) (vs : List (Variable R)) : Prop where
  nodup : vs.Nodup
  mem_iff : ∀ v, v ∈ vs ↔
    (∃ o, m.objective? = some o ∧ ∃ t ∈ o.function.terms, t.var = v) ∨
      ∃ c ∈ m.constraints, ∃ t ∈ c.constraint.function.terms, t.var = v
  ordered : ∀ u ∈ vs, ∀ v ∈ vs,
    (vs.idxOf u < vs.idxOf v ↔ m.ComesFirst Row.objectiveFirst (fun _ => true) u v)

theorem isIndex_vars (m : Model R) : m.IsIndex m.vars where
  nodup := m.nodup_vars
  mem_iff v := by
    rw [mem_vars_iff, terms, functions]
    simp only [List.flatMap_append, List.mem_append, List.mem_flatMap, Option.mem_toList,
      Option.map_eq_some_iff, List.mem_map, or_and_right, exists_or]
    constructor
    · rintro (⟨t, ⟨_, ⟨o, ho, rfl⟩, ht⟩, hvar⟩ | ⟨t, ⟨_, ⟨c, hc, rfl⟩, ht⟩, hvar⟩)
      · exact .inl ⟨o, ho, t, ht, hvar⟩
      · exact .inr ⟨c, hc, t, ht, hvar⟩
    · rintro (⟨o, ho, t, ht, hvar⟩ | ⟨c, hc, t, ht, hvar⟩)
      · exact .inl ⟨t, ⟨_, ⟨o, ho, rfl⟩, ht⟩, hvar⟩
      · exact .inr ⟨t, ⟨_, ⟨c, hc, rfl⟩, ht⟩, hvar⟩
  ordered u hu v _ := by
    have hall : m.terms =
        (m.objectiveRow ++ m.constraintRows).flatMap fun p => p.2.terms.filter fun _ => true := by
      simp only [List.filter_true, terms_eq]
    rw [vars, List.mem_eraseDups, hall] at hu
    rw [vars, idxOf_eraseDups_lt_iff, hall,
      idxOf_lt_iff_comesFirst (fun _ => mem_rows_iff) m.pairwise_objectiveFirst hu]

/-- More constraints are met after all others, so what they add is noted down last. -/
theorem vars_extended (m : Model R) (cs : List (LabeledConstraint R)) :
    (m.extended cs).vars =
      ((cs.flatMap (·.constraint.function.terms)).map (·.var)).foldl noted m.vars := by
  rw [vars, terms_extended, List.map_append, eraseDups_append_eq_foldl]
  rfl

/-- **The variables are an index of the model**, and more constraints only add to its end: no
variable changes its column. -/
theorem vars_isStableIndex (m : Model R) : m.IsIndex m.vars ∧
    ∀ cs, m.vars <+: (m.extended cs).vars ∧
      ∀ v ∈ m.vars, (m.extended cs).vars.idxOf v = m.vars.idxOf v := by
  refine ⟨m.isIndex_vars, fun cs => ?_⟩
  have hbegins : m.vars <+: (m.extended cs).vars := by
    rw [vars_extended]
    exact prefix_foldl_noted _ _
  exact ⟨hbegins, fun v hv => idxOf_eq_of_prefix hbegins hv⟩

end Model

end LinearProgram
