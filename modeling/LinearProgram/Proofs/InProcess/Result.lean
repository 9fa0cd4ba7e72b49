import Mathlib
import LinearProgram.InProcess.Result
import LinearProgram.Proofs.InProcess.Meaning
import LinearProgram.Proofs.Survival
/-!
# What the solver in the process reports

The engine knows columns, and whoever asked knows variables by their names.  The main statement,
`extract_means`, says that nothing goes astray on the way back.  An answer with a value for each
column is reported under the names of the columns, if no two variables of the model share one.
With numbers read as exact rationals, the model as it was given says of the reported values what
the program says of the answer.

## How the proof goes

Distinct names are distinct keys, so no value replaces another (`namedValues_answer`).  Hence a
variable that has a column gets back the value of its column (`reported_eq`).  A variable that
vanished in normal form has no column; what value it gets does not matter, because the normal
form of a function has the same value and does not mention it (`exactValue_reported`).
-/
namespace LinearProgram

namespace InProcess

section

variable {R : Type} [Scalar R]

/-! ## Answers and reports -/

/-- The engine's answer for an assignment of values to the variables that have columns. -/
def Program.answer (p : Program R) (x : Variable R → R) : List (Option (Number R)) :=
  p.columns.map fun c => some (.real (x c.var))

/-- The values that a report gives to names, 0 for those without one. -/
def reported (values : List (Text × R)) (name : Text) : Number R :=
  .real ((lastValue? name values).getD 0)

/-- Columns with distinct names get their values reported one by one. -/
theorem namedValues_answer {p : Program R} (hnames : (p.columns.map (·.var.name)).Nodup)
    (x : Variable R → R) :
    namedValues p (p.answer x) = .ok (p.columns.map fun c => (c.var.name, x c.var)) := by
  have hbound : p.columns.zipIdx.mapM (fun c => do
      return (c.1.var.name, ← columnValue ((p.answer x).getD c.2 (some (.real 0)))))
      = (.ok (p.columns.map fun c => (c.var.name, x c.var)) : Except Failure _) := by
    have hvalue : ∀ c ∈ p.columns.zipIdx,
        (p.answer x).getD c.2 (some (.real 0)) = some (.real (x c.1.var)) := by
      intro c hc
      have hcolumn : p.columns[c.2]? = some c.1 := List.mem_zipIdx_iff_getElem?.mp hc
      simp [Program.answer, hcolumn]
    rw [mapM_eq_ok_iff]
    nth_rewrite 2 [← List.zipIdx_map_fst 0 p.columns]
    rw [List.map_map, List.forall₂_map_right_iff, List.forall₂_same]
    intro c hc
    rw [hvalue c hc]
    rfl
  have hkeys : ((p.columns.map fun c => (c.var.name, x c.var)).map (·.1)).Nodup := by
    simpa [List.map_map, Function.comp_def] using hnames
  rw [namedValues, hbound]
  exact congrArg Except.ok (lastValues_of_nodup hkeys)

variable [DecidableEq R] {m n : Model R} {p : Program R}

/-- A program that was built is that of the normal form. -/
theorem describes_of_ofModel? {available : Bool} (hn : m.normalized? = some n)
    (hp : Program.ofModel? available m = .ok p) : Describes p n := by
  cases available with
  | false => simp [Program.ofModel?, hn] at hp
  | true =>
    cases hbuilt : Program.ofNormal? n with
    | none => simp [Program.ofModel?, hn, hbuilt] at hp
    | some q =>
      simp only [Program.ofModel?, hn, hbuilt] at hp
      obtain rfl := Except.ok.inj hp
      exact ofNormal?_eq_some_iff.mp hbuilt

/-- Each variable of the normal form is reported once, under its name and with its value. -/
theorem namedValues_of_describes (hnames : (n.vars.map (·.name)).Nodup) (hp : Describes p n)
    (x : Variable R → R) :
    namedValues p (p.answer x) = .ok (n.vars.map fun v => (v.name, x v)) := by
  have hcolumns : (p.columns.map (·.var.name)).Nodup := by
    rw [← hp.columns_var, List.map_map] at hnames
    exact hnames
  rw [namedValues_answer hcolumns x, ← hp.columns_var, List.map_map]
  rfl

/-- A variable of the normal form gets back its value under its name. -/
theorem reported_eq (hnames : (n.vars.map (·.name)).Nodup) (x : Variable R → R)
    {v : Variable R} (hv : v ∈ n.vars) :
    reported (n.vars.map fun v => (v.name, x v)) v.name = .real (x v) := by
  have hkeys : ((n.vars.map fun v => (v.name, x v)).map (·.1)).Nodup := by
    simpa [List.map_map, Function.comp_def] using hnames
  rw [reported, lastValue?_of_nodup hkeys (List.mem_map.mpr ⟨v, hv, rfl⟩), Option.getD_some]

end

/-! ## Statuses -/

theorem statusOfCode_eq_optimal_iff (code : Int) :
    statusOfCode code = .optimal ↔ code = 0 ∨ code = 1 := by
  unfold statusOfCode
  split_ifs with h0 h2 h3 h6
  · simpa using h0
  all_goals simpa using h0

/-- A report holds values only if the engine found a solution. -/
theorem extract_eq {p : Program Float} {values : List (Option (Number Float))}
    {vs : List (Text × Float)} (h : namedValues p values = .ok vs) (code : Int) :
    extract p code values = .ok ⟨statusOfCode code, if code = 0 ∨ code = 1 then vs else []⟩ := by
  by_cases hcode : statusOfCode code = .optimal
  · rw [if_pos ((statusOfCode_eq_optimal_iff code).mp hcode)]
    simp only [extract, hcode, h]
    rfl
  · rw [if_neg (mt (statusOfCode_eq_optimal_iff code).mpr hcode)]
    simp only [extract, ne_eq, hcode, not_false_eq_true, if_true]
    rfl

/-! ## Exact values -/

section

variable {m n : Model Rat} {f g : LinearFunction Rat}

/-- Over exact numbers every model can be described. -/
theorem exists_describes_exact (n : Model Rat) : ∃ p, Describes p n :=
  exists_describes (fun t _ => ⟨_, Number.real?_eq t.factor⟩) fun _ _ =>
    exists_column (fun k _ => ⟨_, Number.real?_eq k⟩) fun k _ => ⟨_, Number.real?_eq k⟩

/-- Under the reported values a function has the value of its normal form under the answer. -/
theorem exactValue_reported (hnames : (n.vars.map (·.name)).Nodup) (hg : g ∈ n.functions)
    (hfg : f.normalized? = some g) (x : Variable Rat → Rat) :
    f.exactValue (named (reported (n.vars.map fun v => (v.name, x v)))) = g.exactValue x := by
  rw [← LinearFunction.exactValue_of_normalized? hfg]
  refine LinearFunction.exactValue_congr fun t ht => ?_
  rw [named, reported_eq hnames x (Model.var_mem_vars hg ht)]
  rfl

/-- The model says of the reported values what the program says of the answer. -/
structure Reflects (m : Model Rat) (p : Program Rat) (x : Variable Rat → Rat)
    (values : List (Text × Rat)) : Prop where
  objective : ∀ o : Objective Rat, m.objective? = some o →
    o.function.value? (reported values) = some (activity p.columns p.objective x + p.offset)
  no_objective : m.objective? = none → p.objective = [] ∧ p.offset = 0
  rows_length : p.rows.length = m.constraints.length
  /-- A constraint holds exactly if the bounds of the row at its position hold. -/
  rows : ∀ (k : Nat) (c : LabeledConstraint Rat), m.constraints[k]? = some c →
    ∃ row, p.rows[k]? = some row ∧ ∃ holds, c.constraint.holds? (reported values) = some holds ∧
      (holds = true ↔ row.Admits (activity p.columns row.settings x))

theorem reflects_of_describes {p : Program Rat} (hn : m.Normalizes n) (hp : Describes p n)
    (hnames : (n.vars.map (·.name)).Nodup) (x : Variable Rat → Rat) :
    Reflects m p x (n.vars.map fun v => (v.name, x v)) := by
  have hnormal : ∀ f ∈ n.functions, f.IsNormal := fun f hf => hn.isNormal hf
  constructor
  case objective =>
    intro o ho
    obtain ⟨q, hq, hfunction⟩ := hn.exists_objective ho
    have hvalue := exactValue_reported hnames (Model.objective_mem_functions hq) hfunction x
    rw [exactValue_objective hp hnormal hq] at hvalue
    rw [LinearFunction.value?_eq]
    exact congrArg some hvalue
  case no_objective =>
    intro ho
    have hnone := hn.objective_eq_none ho
    refine ⟨hp.objective_eq_nil hnone, ?_⟩
    rw [hp.offset, hnone]
    rfl
  case rows_length => exact hp.rows.length_eq.symm.trans hn.constraints.length_eq.symm
  case rows =>
    intro k c hc
    obtain ⟨d, hd, hfunction, hcomparison, hconstant, _⟩ := forall₂_getElem? hn.constraints hc
    obtain ⟨row, hrow, hof⟩ := forall₂_getElem? hp.rows hd
    have hmem : d.constraint.function ∈ n.functions :=
      Model.function_mem_functions (List.mem_of_getElem? hd)
    have hvalue := exactValue_reported hnames hmem hfunction x
    refine ⟨row, hrow, _, Constraint.holds?_eq _ _, ?_⟩
    rw [Comparison.holds_iff, holds_row_iff hp hnormal (List.mem_of_getElem? hrow) hof,
      hcomparison, hconstant, ← hvalue]
    rfl

end

/-- **What the solver reports means the same for the model as it was given**, if no two of its
variables share a name.  An answer that is a solution is reported with one entry for each
variable of the normal form, any other without values; and over exact numbers the model agrees
with the program about the entries. -/
theorem extract_means :
    (∀ {m n : Model Float} {p : Program Float} {available : Bool},
      (m.vars.map (·.name)).Nodup → m.normalized? = some n →
      Program.ofModel? available m = .ok p →
      ∀ (code : Int) (x : Variable Float → Float),
        extract p code (p.answer x) = .ok ⟨statusOfCode code,
          if code = 0 ∨ code = 1 then n.vars.map fun v => (v.name, x v) else []⟩) ∧
    ∀ m : Model Rat, (m.vars.map (·.name)).Nodup →
      ∃ n p, m.normalized? = some n ∧ Program.ofModel? true m = .ok p ∧
        ∀ x : Variable Rat → Rat,
          namedValues p (p.answer x) = .ok (n.vars.map fun v => (v.name, x v)) ∧
          Reflects m p x (n.vars.map fun v => (v.name, x v)) := by
  constructor
  · intro m n p available hnames hn hp code x
    have hnormal := Model.normalized?_eq_some_iff.mp hn
    exact extract_eq (namedValues_of_describes (hnormal.nodup_names hnames)
      (describes_of_ofModel? hn hp) x) code
  · intro m hnames
    obtain ⟨n, hn⟩ := m.exists_normalizes
    obtain ⟨p, hp⟩ := exists_describes_exact n
    have hdistinct := hn.nodup_names hnames
    exact ⟨n, p, Model.normalized?_eq_some_iff.mpr hn, ofModel?_eq_ok hn hp, fun x =>
      ⟨namedValues_of_describes hdistinct hp x, reflects_of_describes hn hp hdistinct x⟩⟩

/-- A model in which one variable cancels out of everything, so that it gets no column. -/
def lostModel (R : Type) [Scalar R] : Model R :=
  let x : Variable R := ⟨0, Text.ofString "x", .real, none, none⟩
  let y : Variable R := ⟨1, Text.ofString "y", .integer, some (.int 0), some (.int 9)⟩
  { name := Text.ofString "lost"
    objective? := some ⟨⟨[⟨x, .int 1⟩, ⟨y, .int 2⟩, ⟨x, .int (-1)⟩], 1⟩, .maximize⟩
    constraints := [⟨⟨⟨[⟨x, .int 0⟩, ⟨y, .int 3⟩], 0⟩, .lte, 1⟩, none⟩] }

theorem extract_means_lostModel :
    (∃ n p, (lostModel Float).normalized? = some n ∧
      Program.ofModel? true (lostModel Float) = .ok p ∧ n.vars ≠ (lostModel Float).vars ∧
      extract p 1 (p.answer fun _ => 2.5) = .ok ⟨.optimal, n.vars.map fun v => (v.name, 2.5)⟩) ∧
    ∃ n p, (lostModel Rat).normalized? = some n ∧
      Program.ofModel? true (lostModel Rat) = .ok p ∧
      Reflects (lostModel Rat) p (fun _ => 2) (n.vars.map fun v => (v.name, 2)) := by
  constructor
  · have hnames : ((lostModel Float).vars.map (·.name)).Nodup := by decide +kernel
    have hsome : ((lostModel Float).normalized?.isSome ∧
        (Program.ofModel? true (lostModel Float)).isOk) := by decide +kernel
    have hvars : ∀ n ∈ (lostModel Float).normalized?, n.vars ≠ (lostModel Float).vars := by
      decide +kernel
    obtain ⟨n, hn⟩ := Option.isSome_iff_exists.mp hsome.1
    cases hp : Program.ofModel? true (lostModel Float) with
    | error e => simp [hp, Except.isOk, Except.toBool] at hsome
    | ok p => exact ⟨n, p, hn, rfl, hvars n hn, extract_means.1 hnames hn hp 1 fun _ => 2.5⟩
  · have hnames : ((lostModel Rat).vars.map (·.name)).Nodup := by decide +kernel
    obtain ⟨n, p, hn, hp, hreport⟩ := extract_means.2 (lostModel Rat) hnames
    exact ⟨n, p, hn, hp, (hreport fun _ => 2).2⟩

end InProcess

end LinearProgram
