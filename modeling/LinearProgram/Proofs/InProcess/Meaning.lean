import Mathlib
import LinearProgram.Proofs.Exact
import LinearProgram.Proofs.InProcess.Program
/-!
# A program means what its model means

With numbers read as exact rationals, `ofModel?_means` says that handing a model to
the solver loses nothing: under every valuation of names each constraint holds
exactly if the bounds of its row hold, and the objective has the value that the
solver computes.

## How the proof goes

`activity` sums over the columns, as the solver does, taking for each column the
coefficient that was set last.  `sum_coefficients` turns it into a sum over the
settings themselves; this needs that no variable is set twice and that each has a
column, which the normal form grants.  The sum over the settings is the sum over the
terms of the normal function (`activity_settings`), and normalising changed no value
(`exactValue_of_normalized?`).  What is left is moving the constant of the function
across the comparison (`holds_row_iff`).
-/
namespace LinearProgram.InProcess

/-! ## What the solver computes -/

/-- The value of coefficients, summed over the columns, under values of the variables. -/
def activity (columns : List (Column Rat)) (s : Settings Rat) (x : Variable Rat → Rat) : Rat :=
  (columns.map fun c => s.coefficient c.var * x c.var).sum

/-- Whether an activity lies within the bounds of a row; an absent bound does not bind. -/
def BoundedRow.Admits (row : BoundedRow Rat) (a : Rat) : Prop :=
  (∀ l ∈ row.lower?, l ≤ a) ∧ ∀ u ∈ row.upper?, a ≤ u

/-- The exact value that a valuation of names gives each variable. -/
def named (values : Text → Number Rat) (v : Variable Rat) : Rat :=
  (values v.name).toRat

/-- The coefficient of a key under which nothing is set is 0. -/
theorem coefficient_of_not_mem {s : Settings Rat} {v : Variable Rat} (h : v ∉ s.map (·.1)) :
    s.coefficient v = 0 := by
  rw [Settings.coefficient, lastValue?_eq_none h]
  rfl

theorem coefficient_cons {q : Variable Rat × Rat} {s : Settings Rat}
    (h : ((q :: s).map (·.1)).Nodup) (v : Variable Rat) :
    Settings.coefficient (q :: s) v = (if v = q.1 then q.2 else 0) + s.coefficient v := by
  obtain ⟨hq, _⟩ := List.nodup_cons.mp h
  by_cases hv : v = q.1
  · subst hv
    have hlast : lastValue? q.1 (q :: s) = some q.2 :=
      lastValue?_of_nodup h (List.mem_cons_self ..)
    rw [coefficient_of_not_mem hq, if_pos rfl, add_zero, Settings.coefficient, hlast]
    rfl
  · have hvalues : valuesOf v (q :: s) = valuesOf v s := by
      rw [valuesOf_cons, if_neg fun e => hv e.symm]
    rw [if_neg hv, zero_add, Settings.coefficient, Settings.coefficient, lastValue?, lastValue?,
      hvalues]

/-- Summing over columns is summing over settings, when each variable is set once and
has one column. -/
theorem sum_coefficients {vs : List (Variable Rat)} (hvs : vs.Nodup) (x : Variable Rat → Rat) :
    ∀ {s : Settings Rat}, (s.map (·.1)).Nodup → (∀ q ∈ s, q.1 ∈ vs) →
      (vs.map fun v => s.coefficient v * x v).sum = (s.map fun q => q.2 * x q.1).sum
  | [], _, _ => by
    have hzero : ∀ v ∈ vs, Settings.coefficient ([] : Settings Rat) v * x v = 0 := by
      intro v _
      rw [coefficient_of_not_mem (by simp), zero_mul]
    rw [List.map_congr_left hzero]
    simp
  | q :: s, hs, hmem => by
    have hq : q.1 ∈ vs := hmem q (List.mem_cons_self ..)
    have hrest := sum_coefficients hvs x (List.nodup_cons.mp hs).2
      fun r hr => hmem r (List.mem_cons_of_mem _ hr)
    have hsingle : (vs.map fun v => (if v = q.1 then q.2 else 0) * x v).sum = q.2 * x q.1 := by
      rw [List.sum_map_eq_nsmul_single q.1 _ fun v hv _ => by rw [if_neg hv, zero_mul],
        List.count_eq_one_of_mem hvs hq, if_pos rfl, one_nsmul]
    calc (vs.map fun v => Settings.coefficient (q :: s) v * x v).sum
        = (vs.map fun v =>
            (if v = q.1 then q.2 else 0) * x v + Settings.coefficient s v * x v).sum := by
          simp only [coefficient_cons hs, add_mul]
      _ = q.2 * x q.1 + (s.map fun q => q.2 * x q.1).sum := by
          rw [List.sum_map_add, hsingle, hrest]
      _ = ((q :: s).map fun q => q.2 * x q.1).sum := by
          rw [List.map_cons, List.sum_cons]

/-- Settings of a function add up to its terms. -/
theorem sum_settings {f : LinearFunction Rat} {s : Settings Rat} (h : settingsOf? f = some s)
    (x : Variable Rat → Rat) :
    (s.map fun q => q.2 * x q.1).sum = (f.terms.map fun t => x t.var * t.factor.toRat).sum := by
  congr 1
  refine map_eq_map_of_forall₂ ((settingsOf?_eq_some_iff.mp h).imp fun t q htq => ?_)
  obtain ⟨hvar, hfactor⟩ := htq
  rw [Number.real?_eq, Option.some.injEq] at hfactor
  rw [hvar, ← hfactor, mul_comm]

/-! ## Rows and objectives -/

section

variable {n : Model Rat} {p : Program Rat} {s : Settings Rat} {f : LinearFunction Rat}
  (hp : Describes p n) (hnormal : ∀ f ∈ n.functions, f.IsNormal)

include hp hnormal

/-- The activity of settings is the value of their function without its constant. -/
theorem activity_settings (hs : s ∈ p.allSettings) (hfs : settingsOf? f = some s)
    (x : Variable Rat → Rat) : activity p.columns s x = f.exactValue x - f.constant := by
  have hsum := sum_coefficients hp.nodup_columns x (hp.nodup_settings hnormal hs)
    fun q hq => hp.mem_columns_of_mem_settings hs hq
  rw [List.map_map] at hsum
  have hvalue : f.exactValue x = f.constant + activity p.columns s x := by
    rw [LinearFunction.exactValue, ← sum_settings hfs x, ← hsum]
    rfl
  rw [hvalue, add_sub_cancel_left]

/-- The bounds of a row admit its activity exactly if the comparison holds. -/
theorem holds_row_iff {c : Constraint Rat} {row : BoundedRow Rat} (hrow : row ∈ p.rows)
    (hof : BoundedRow.of? c = some row) (x : Variable Rat → Rat) :
    row.Admits (activity p.columns row.settings x) ↔
      c.comparison.Relates (c.function.exactValue x) c.constant := by
  obtain ⟨hfs, hlower, hupper⟩ := rowOf?_eq_some_iff.mp hof
  have hmem : row.settings ∈ p.allSettings :=
    List.mem_cons_of_mem _ (List.mem_map.mpr ⟨row, hrow, rfl⟩)
  rw [activity_settings hp hnormal hmem hfs x, BoundedRow.Admits, hlower, hupper]
  have hright : c.rightHandSide = c.constant - c.function.constant := rfl
  cases c.comparison with
  | lte => simp [lowerFor, upperFor, Comparison.Relates, hright]
  | gte => simp [lowerFor, upperFor, Comparison.Relates, hright]
  | eq =>
    simp only [lowerFor, upperFor, Comparison.Relates, hright, reduceCtorEq, if_false,
      Option.mem_some_iff, forall_eq', sub_le_sub_iff_right]
    rw [and_comm, ← le_antisymm_iff]

/-- The objective has the value that the solver computes. -/
theorem exactValue_objective {o : Objective Rat} (ho : n.objective? = some o)
    (x : Variable Rat → Rat) :
    o.function.exactValue x = activity p.columns p.objective x + p.offset := by
  have hsettings := hp.settings_objective ho
  have hoffset : p.offset = o.function.constant := by
    rw [hp.offset, ho]
    rfl
  rw [activity_settings hp hnormal (List.mem_cons_self ..) hsettings x, hoffset, sub_add_cancel]

end

/-! ## Whole programs -/

/-- The program says of every valuation what the model says, its columns are declared as
the variables are, and no coefficient set is lost. -/
structure Means (p : Program Rat) (m : Model Rat) : Prop where
  rows_length : p.rows.length = m.constraints.length
  /-- A constraint holds exactly if the bounds of the row at its position hold. -/
  rows : ∀ (values : Text → Number Rat) (k : Nat) (c : LabeledConstraint Rat),
    m.constraints[k]? = some c → ∃ row, p.rows[k]? = some row ∧
      ∃ holds, c.constraint.holds? values = some holds ∧
        (holds = true ↔ row.Admits (activity p.columns row.settings (named values)))
  /-- The objective has the value that the solver computes. -/
  objective : ∀ (values : Text → Number Rat) (o : Objective Rat), m.objective? = some o →
    o.function.value? values = some (activity p.columns p.objective (named values) + p.offset)
  no_objective : m.objective? = none → p.objective = [] ∧ p.offset = 0
  maximize : p.maximize = true ↔ m.optimization = .maximize
  /-- A column has the bounds of its variable, and is integral unless the domain is real. -/
  columns : ∀ c ∈ p.columns, c.var ∈ m.vars ∧
    c.lower? = c.var.minimum?.map Number.toRat ∧ c.upper? = c.var.maximum?.map Number.toRat ∧
    (c.integral = true ↔ c.var.domain ≠ .real)
  columns_nodup : (p.columns.map (·.var)).Nodup
  backend : p.backend = .continuous ↔ ∀ c ∈ p.columns, c.integral = false
  /-- Every variable that is set has a column. -/
  created : ∀ s ∈ p.allSettings, ∀ q ∈ s, q.1 ∈ p.columns.map (·.var)
  /-- No variable is set twice, so setting again never replaces a coefficient. -/
  set_once : ∀ s ∈ p.allSettings, (s.map (·.1)).Nodup

/-- A bound as a real is its exact value. -/
theorem mapM_real?_eq (k? : Option (Number Rat)) :
    k?.mapM Number.real? = some (k?.map Number.toRat) := by
  cases k? with
  | none => rfl
  | some k => simp [Number.real?_eq]

/-- **Handing a model over loses nothing**: the program that is built always exists and
means what the model means. -/
theorem ofModel?_means (m : Model Rat) :
    ∃ p, Program.ofModel? true m = .ok p ∧ Means p m := by
  obtain ⟨n, hn⟩ := m.exists_normalizes
  obtain ⟨p, hp⟩ := exists_describes (m := n) (fun t _ => ⟨_, Number.real?_eq t.factor⟩)
    fun v _ => exists_column (fun k _ => ⟨_, Number.real?_eq k⟩) fun k _ => ⟨_, Number.real?_eq k⟩
  have hnormal : ∀ f ∈ n.functions, f.IsNormal := fun f hf => hn.isNormal hf
  refine ⟨p, ofModel?_eq_ok hn hp, ?_⟩
  constructor
  case rows_length => exact hp.rows.length_eq.symm.trans hn.constraints.length_eq.symm
  case rows =>
    intro values k c hc
    obtain ⟨d, hd, hfunction, hcomparison, hconstant, _⟩ := forall₂_getElem? hn.constraints hc
    obtain ⟨row, hrow, hof⟩ := forall₂_getElem? hp.rows hd
    refine ⟨row, hrow, _, Constraint.holds?_eq _ values, ?_⟩
    rw [Comparison.holds_iff, holds_row_iff hp hnormal (List.mem_of_getElem? hrow) hof, hcomparison,
      hconstant, LinearFunction.exactValue_of_normalized? hfunction]
    rfl
  case objective =>
    intro values o ho
    obtain ⟨q, hq, hfunction⟩ := hn.exists_objective ho
    rw [LinearFunction.value?_eq, ← LinearFunction.exactValue_of_normalized? hfunction,
      exactValue_objective hp hnormal hq]
    rfl
  case no_objective =>
    intro ho
    have hnone : n.objective? = none := by
      rw [← Option.isNone_iff_eq_none, ← Option.isSome_eq_false_iff, hn.objective_isSome, ho]
      rfl
    refine ⟨hp.objective_eq_nil hnone, ?_⟩
    rw [hp.offset, hnone]
    rfl
  case maximize => rw [hp.maximize, Model.maximizes, hn.optimization, decide_eq_true_iff]
  case columns =>
    intro c hc
    obtain ⟨_, hlower, hupper, hintegral⟩ := columnOf?_eq_some_iff.mp (hp.of_mem_columns hc)
    rw [mapM_real?_eq, Option.some.injEq] at hlower hupper
    have hvar : c.var ∈ n.vars := hp.columns_var ▸ List.mem_map_of_mem hc
    refine ⟨hn.mem_vars hvar, hlower.symm, hupper.symm, ?_⟩
    rw [hintegral, Variable.isIntegral, decide_eq_true_iff]
  case columns_nodup => exact hp.nodup_columns
  case backend => exact hp.backend_eq_continuous_iff
  case created => exact fun s hs q hq => hp.mem_columns_of_mem_settings hs hq
  case set_once => exact fun s hs => hp.nodup_settings hnormal hs

end LinearProgram.InProcess
