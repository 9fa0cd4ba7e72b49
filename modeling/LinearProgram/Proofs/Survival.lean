import Mathlib
import LinearProgram.Proofs.NormalForm
import LinearProgram.Validation
/-!
# What becomes of violations in normal form

A model in normal form may have fewer variables, in another order.  If no two variables of
the model share a name, its violations are still those of the model, less those of the
variables that it lost, in some order (`Normalizes.perm_violations`): each variable is then
judged alone, and model name and labels are the same.  With a shared name this fails, because
the second holder of the name is no longer reported if the first one is lost.
-/
namespace LinearProgram

variable {R : Type} [Scalar R]

/-! ## Who a violation is about -/

theorem holder?_of_mem_violations {v : Variable R} {e : Violation R} (he : e ∈ v.violations) :
    e.holder? = some v := by
  have hall : ∀ e ∈ v.violations, e.holder? = some v := by
    unfold Variable.violations
    split_ifs <;> simp [Violation.holder?]
  exact hall e he

omit [Scalar R] in
theorem holder?_of_mem_labelViolations {ls : List (Option Text)} {taken : List Text}
    {position : Nat} {e : Violation R} (he : e ∈ labelViolations taken position ls) :
    e.holder? = none := by
  induction ls generalizing taken position with
  | nil => cases he
  | cons l? ls ih =>
    cases l? with
    | none => exact ih he
    | some l =>
      unfold labelViolations at he
      split_ifs at he
      · exact ih he
      · obtain rfl | he := List.mem_cons.mp he
        · rfl
        · exact ih he
      · exact ih he

/-- Variables with distinct names are judged one by one. -/
theorem variableViolations_of_nodup {vs : List (Variable R)} {taken : List Text}
    (hnames : (vs.map (·.name)).Nodup) (htaken : ∀ v ∈ vs, v.name ∉ taken) :
    variableViolations taken vs = vs.flatMap Variable.violations := by
  induction vs generalizing taken with
  | nil => rfl
  | cons v vs ih =>
    obtain ⟨hv, hvs⟩ := List.nodup_cons.mp hnames
    obtain ⟨htv, htvs⟩ := List.forall_mem_cons.mp htaken
    have htvs' : ∀ w ∈ vs, w.name ∉ v.name :: taken := by
      intro w hw hmem
      obtain heq | hmem := List.mem_cons.mp hmem
      · exact hv (List.mem_map.mpr ⟨w, hw, heq⟩)
      · exact htvs w hw hmem
    unfold variableViolations
    split_ifs with hempty hcontains
    · rw [ih hvs htvs, List.flatMap_cons]
    · exact absurd (List.contains_iff_mem.mp hcontains) htv
    · rw [ih hvs htvs', List.flatMap_cons]

/-! ## Models and their normal forms -/

variable [DecidableEq R]

/-- The violation is about a variable that disappears from the first model to the second. -/
def Violation.IsLost (m n : Model R) (e : Violation R) : Prop :=
  ∃ v ∈ e.holder?, v ∈ m.vars ∧ v ∉ n.vars

instance (m n : Model R) : DecidablePred (Violation.IsLost m n) := fun e =>
  inferInstanceAs (Decidable (∃ v ∈ e.holder?, v ∈ m.vars ∧ v ∉ n.vars))

namespace Model

variable {m n : Model R}

/-- The variables of the normal form are those of the model that it kept. -/
theorem Normalizes.perm_vars (h : m.Normalizes n) :
    n.vars.Perm (m.vars.filter (· ∈ n.vars)) := by
  rw [List.perm_ext_iff_of_nodup n.nodup_vars (m.nodup_vars.filter _)]
  intro v
  simp only [List.mem_filter, decide_eq_true_eq]
  exact ⟨fun hv => ⟨h.mem_vars hv, hv⟩, And.right⟩

theorem Normalizes.nodup_names (h : m.Normalizes n) (hnames : (m.vars.map (·.name)).Nodup) :
    (n.vars.map (·.name)).Nodup := by
  rw [(h.perm_vars.map _).nodup_iff]
  exact hnames.sublist (List.filter_sublist.map _)

theorem Normalizes.labels (h : m.Normalizes n) :
    n.constraints.map (·.label?) = m.constraints.map (·.label?) :=
  map_eq_map_of_forall₂ (h.constraints.imp fun _ _ hcd => hcd.2.2.2)

/-- **Normalising reports nothing new and loses nothing** but what is wrong with variables that
disappear. -/
theorem Normalizes.perm_violations (h : m.Normalizes n) (hnames : (m.vars.map (·.name)).Nodup) :
    n.violations.Perm (m.violations.filter fun e => ¬ e.IsLost m n) := by
  have hname : List.filter (fun e : Violation R => ¬ e.IsLost m n)
      (if m.name.contains (.char ' ') then [.invalidModelName m.name] else []) =
        if n.name.contains (.char ' ') then [.invalidModelName n.name] else [] := by
    rw [h.name]
    split_ifs <;> simp [Violation.IsLost, Violation.holder?]
  have hlabels : List.filter (fun e : Violation R => ¬ e.IsLost m n)
      (labelViolations [] 0 (m.constraints.map (·.label?))) =
        labelViolations [] 0 (n.constraints.map (·.label?)) := by
    rw [h.labels, List.filter_eq_self]
    intro e he
    simp [Violation.IsLost, holder?_of_mem_labelViolations he]
  have hkept : ∀ v ∈ m.vars, v.violations.filter (fun e => ¬ e.IsLost m n) =
      if v ∈ n.vars then v.violations else [] := by
    intro v hv
    split_ifs with hvn
    · rw [List.filter_eq_self]
      intro e he
      simp [Violation.IsLost, holder?_of_mem_violations he, hvn]
    · rw [List.filter_eq_nil_iff]
      intro e he
      simp [Violation.IsLost, holder?_of_mem_violations he, hv, hvn]
  have hvars : (n.vars.flatMap Variable.violations).Perm
      ((m.vars.flatMap Variable.violations).filter fun e => ¬ e.IsLost m n) := by
    have hfilter : (m.vars.flatMap Variable.violations).filter (fun e => ¬ e.IsLost m n) =
        (m.vars.filter (· ∈ n.vars)).flatMap Variable.violations := by
      have hif := flatMap_filter_map (fun v => decide (v ∈ n.vars)) id
        (Variable.violations (R := R)) m.vars
      rw [List.map_id] at hif
      rw [hif, List.filter_flatMap]
      refine List.flatMap_congr fun v hv => ?_
      simpa using hkept v hv
    rw [hfilter]
    exact h.perm_vars.flatMap_right _
  rw [violations, violations, variableViolations_of_nodup (h.nodup_names hnames) (by simp),
    variableViolations_of_nodup hnames (by simp), List.filter_append, List.filter_append, hname,
    hlabels]
  exact (hvars.append_left _).append_right _

/-- A model without violations has none in normal form. -/
theorem Normalizes.violations_eq_nil (h : m.Normalizes n) (hnames : (m.vars.map (·.name)).Nodup)
    (hm : m.violations = []) : n.violations = [] := by
  have hperm := h.perm_violations hnames
  rw [hm] at hperm
  exact hperm.eq_nil

end Model

end LinearProgram
