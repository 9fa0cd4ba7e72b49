import Mathlib
import LinearProgram.Proofs.Exact
/-!
# Normalising keeps the meaning of a model

A model and its normal form say the same of every valuation of names, place by place.
Merging goes by variable and a valuation by name, so two variables may share a name
here; nothing is asked of the names.

`totalFactor` is the sum of the factors of a variable in a function.  It says which
variables are left: those whose factors do not add up to zero in every function.

## How the proof goes

That values stay is `exactValue_of_normalized?`, lifted to the places of a model.  The
variables need no second look at merging: the total factor of a variable is the
value of the function where this variable is 1 and all others are 0
(`exactValue_single`), so it stays as well.  In a normal form a variable has at most
one term, and its factor is not zero, so it occurs exactly if its total factor is not
zero (`IsNormal.totalFactor_ne_zero_iff`).
-/
namespace LinearProgram

/-! ## Functions -/

namespace LinearFunction

/-- The sum of the factors of a variable, told apart by what it is and not by its name. -/
def totalFactor (f : LinearFunction Rat) (v : Variable Rat) : Rat :=
  ((f.terms.filter (·.var = v)).map (·.factor.toRat)).sum

theorem exactValue_single (f : LinearFunction Rat) (v : Variable Rat) :
    f.exactValue (fun w => if w = v then 1 else 0) = f.constant + f.totalFactor v := by
  obtain ⟨ts, c⟩ := f
  simp only [exactValue, totalFactor, ite_mul, one_mul, zero_mul]
  congr 1
  induction ts with
  | nil => rfl
  | cons t ts ih =>
    by_cases ht : t.var = v
    · simp [ht, ih]
    · simp [ht, ih]

variable {f g : LinearFunction Rat}

theorem value?_of_normalized? (h : f.normalized? = some g) (values : Text → Number Rat) :
    g.value? values = f.value? values := by
  rw [value?_eq, value?_eq, exactValue_of_normalized? h]

/-- Merging changes no total factor. -/
theorem totalFactor_of_normalized? (h : f.normalized? = some g) (v : Variable Rat) :
    g.totalFactor v = f.totalFactor v := by
  have hvalue := exactValue_of_normalized? h fun w => if w = v then 1 else 0
  rw [exactValue_single, exactValue_single, constant_of_normalized? h] at hvalue
  exact add_left_cancel hvalue

theorem totalFactor_eq_zero {v : Variable Rat} (h : ∀ t ∈ f.terms, t.var ≠ v) :
    f.totalFactor v = 0 := by
  have hfilter : f.terms.filter (·.var = v) = [] := by simpa using h
  rw [totalFactor, hfilter]
  rfl

/-- Among terms with different variables, one is alone with its variable. -/
theorem filter_var_of_nodup {ts : List (Term Rat)} (hts : (ts.map (·.var)).Nodup) {t : Term Rat}
    (ht : t ∈ ts) : ts.filter (·.var = t.var) = [t] := by
  induction ts with
  | nil => cases ht
  | cons u ts ih =>
    obtain ⟨hu, hrest⟩ := List.nodup_cons.mp hts
    rcases List.mem_cons.mp ht with rfl | ht
    · have hnone : ts.filter (·.var = t.var) = [] := by
        rw [List.filter_eq_nil_iff]
        intro w hw hvar
        exact hu (List.mem_map.mpr ⟨w, hw, of_decide_eq_true hvar⟩)
      rw [List.filter_cons_of_pos (by simp), hnone]
    · have hne : u.var ≠ t.var := fun e => hu (List.mem_map.mpr ⟨t, ht, e.symm⟩)
      rw [List.filter_cons_of_neg (by simpa using hne), ih hrest ht]

/-- In a normal form the factor of a term is the total factor of its variable. -/
theorem IsNormal.totalFactor_eq (h : f.IsNormal) {t : Term Rat} (ht : t ∈ f.terms) :
    f.totalFactor t.var = t.factor.toRat := by
  rw [totalFactor, filter_var_of_nodup h.nodup ht]
  simp

/-- In a normal form exactly the variables that occur have a total factor other than zero. -/
theorem IsNormal.totalFactor_ne_zero_iff (h : f.IsNormal) {v : Variable Rat} :
    f.totalFactor v ≠ 0 ↔ ∃ t ∈ f.terms, t.var = v := by
  constructor
  · intro hv
    by_contra hnone
    exact hv (totalFactor_eq_zero fun t ht hvar => hnone ⟨t, ht, hvar⟩)
  · rintro ⟨t, ht, rfl⟩
    have hzero := h.nonzero t ht
    rw [Number.isZero_eq, decide_eq_false_iff_not] at hzero
    rwa [h.totalFactor_eq ht]

end LinearFunction

/-! ## Models -/

namespace Model

variable {m n : Model Rat}

/-- Something holds of a function of the model if it does of the objective or of a constraint. -/
theorem exists_function_iff {p : LinearFunction Rat → Prop} :
    (∃ f ∈ m.functions, p f) ↔ (∃ o, m.objective? = some o ∧ p o.function) ∨
      ∃ c ∈ m.constraints, p c.constraint.function := by
  constructor
  · rintro ⟨f, hf, hp⟩
    rcases List.mem_append.mp hf with hf | hf
    · obtain ⟨o, ho, rfl⟩ := Option.map_eq_some_iff.mp (Option.mem_toList.mp hf)
      exact .inl ⟨o, ho, hp⟩
    · obtain ⟨c, hc, rfl⟩ := List.mem_map.mp hf
      exact .inr ⟨c, hc, hp⟩
  · rintro (⟨o, ho, hp⟩ | ⟨c, hc, hp⟩)
    · exact ⟨o.function, objective_mem_functions ho, hp⟩
    · exact ⟨c.constraint.function, function_mem_functions hc, hp⟩

/-- The variables that stay are those that do not cancel out everywhere. -/
theorem Normalizes.mem_vars_iff (h : m.Normalizes n) {v : Variable Rat} :
    v ∈ n.vars ↔ ∃ f ∈ m.functions, f.totalFactor v ≠ 0 := by
  have hfunctions := h.functions
  constructor
  · intro hv
    obtain ⟨t, ht, hvar⟩ := Model.mem_vars_iff.mp hv
    obtain ⟨g, hg, htg⟩ := mem_terms_iff.mp ht
    obtain ⟨k, hk⟩ := List.mem_iff_getElem?.mp hg
    obtain ⟨f, hf, hfg⟩ := forall₂_getElem? hfunctions.flip hk
    refine ⟨f, List.mem_of_getElem? hf, ?_⟩
    rw [← LinearFunction.totalFactor_of_normalized? hfg, (h.isNormal hg).totalFactor_ne_zero_iff]
    exact ⟨t, htg, hvar⟩
  · rintro ⟨f, hf, hv⟩
    obtain ⟨k, hk⟩ := List.mem_iff_getElem?.mp hf
    obtain ⟨g, hg, hfg⟩ := forall₂_getElem? hfunctions hk
    have hgn : g ∈ n.functions := List.mem_of_getElem? hg
    rw [← LinearFunction.totalFactor_of_normalized? hfg,
      (h.isNormal hgn).totalFactor_ne_zero_iff] at hv
    obtain ⟨t, ht, rfl⟩ := hv
    exact var_mem_vars hgn ht

/-- Two constraints at one place say the same of every valuation. -/
structure SameConstraint (c d : LabeledConstraint Rat) : Prop where
  label : d.label? = c.label?
  comparison : d.constraint.comparison = c.constraint.comparison
  constant : d.constraint.constant = c.constraint.constant
  holds : ∀ values : Text → Number Rat, ∃ b,
    c.constraint.holds? values = some b ∧ d.constraint.holds? values = some b

/-- Two models say the same of every valuation, place by place, and the second has the variables
that do not cancel out in the first. -/
structure SameMeaning (m n : Model Rat) : Prop where
  name : n.name = m.name
  optimization : n.optimization = m.optimization
  objective : ∀ o, m.objective? = some o → ∃ p, n.objective? = some p ∧
    ∀ values : Text → Number Rat, ∃ x,
      o.function.value? values = some x ∧ p.function.value? values = some x
  no_objective : m.objective? = none → n.objective? = none
  constraints_length : n.constraints.length = m.constraints.length
  constraints : ∀ (k : Nat) (c : LabeledConstraint Rat), m.constraints[k]? = some c →
    ∃ d, n.constraints[k]? = some d ∧ SameConstraint c d
  vars : ∀ v, v ∈ n.vars ↔ (∃ o, m.objective? = some o ∧ o.function.totalFactor v ≠ 0) ∨
    ∃ c ∈ m.constraints, c.constraint.function.totalFactor v ≠ 0

/-- **Normalising keeps the meaning of every model**, and always succeeds on exact numbers. -/
theorem exists_sameMeaning (m : Model Rat) : ∃ n, m.normalized? = some n ∧ m.SameMeaning n := by
  obtain ⟨n, hn⟩ := m.exists_normalizes
  refine ⟨n, normalized?_eq_some_iff.mpr hn, ?_⟩
  constructor
  case name => exact hn.name
  case optimization => exact hn.optimization
  case objective =>
    intro o ho
    obtain ⟨p, hp, hfunction⟩ := hn.exists_objective ho
    refine ⟨p, hp, fun values => ⟨_, LinearFunction.value?_eq o.function values, ?_⟩⟩
    rw [LinearFunction.value?_of_normalized? hfunction, LinearFunction.value?_eq]
  case no_objective =>
    intro ho
    have hisSome := hn.objective_isSome
    rw [ho] at hisSome
    simpa using hisSome
  case constraints_length => exact hn.constraints.length_eq.symm
  case constraints =>
    intro k c hc
    obtain ⟨d, hd, hfunction, hcomparison, hconstant, hlabel⟩ := forall₂_getElem? hn.constraints hc
    refine ⟨d, hd, hlabel, hcomparison, hconstant, fun values => ?_⟩
    refine ⟨_, Constraint.holds?_eq c.constraint values, ?_⟩
    rw [Constraint.holds?_eq, LinearFunction.exactValue_of_normalized? hfunction, hcomparison,
      hconstant]
  case vars =>
    intro v
    rw [hn.mem_vars_iff, exists_function_iff]

end Model

end LinearProgram
