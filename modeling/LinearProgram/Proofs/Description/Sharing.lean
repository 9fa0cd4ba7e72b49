import Mathlib
import LinearProgram.Proofs.Description.References
import LinearProgram.Proofs.Renaming
import LinearProgram.Proofs.Survival
/-!
# The model of a description is faithful and shares variables

`isFaithful_of_toModel` compares a description with the model it stands for.  Each function has
the terms of its description, in order, over variables that carry what was declared of their names
(`Variable.Declares`).  Two terms anywhere in the model refer to one variable exactly if they use
one name.  So the variables of the model are the names that are used, in the order of their first
use, no name is reported as shared, and every function has the value that its description has.

## How the proof goes

A term gets the first declared variable with its name (`toFunction_eq_ok_iff`), and the declared
variables are told apart both by their identities and by their names.  Names of terms are then read
off place by place (`map_name_terms`), and erasing repeated variables is erasing repeated names.
-/
namespace LinearProgram.Description

/-! ## Declared variables -/

/-- The variable carries what is declared.  A binary one without bounds has 0 and 1. -/
structure Variable.Declares (v : Variable) (x : LinearProgram.Variable Float) : Prop where
  name : x.name = v.name
  domain : x.domain = v.domain
  minimum : x.minimum? =
    (v.minimum?.or (if v.domain = .binary then some 0.0 else none)).map .real
  maximum : x.maximum? =
    (v.maximum?.or (if v.domain = .binary then some 1.0 else none)).map .real

theorem Variable.declares_declared (v : Variable) (id : Nat) : v.Declares (v.declared id) := by
  obtain ⟨name, domain, lo?, hi?⟩ := v
  cases domain with
  | real => constructor <;> simp [declared, Variable.declare]
  | integer => constructor <;> simp [declared, Variable.declare]
  | binary =>
    constructor
    · rfl
    · rfl
    · cases lo? <;> rfl
    · cases hi? <;> rfl

theorem Variable.id_declared (v : Variable) (id : Nat) : (v.declared id).id = id := by
  obtain ⟨name, domain, lo?, hi?⟩ := v
  cases domain <;> rfl

section

variable {d : Model} {x y : LinearProgram.Variable Float}

theorem mem_declared_iff : x ∈ d.declared ↔
    ∃ v, d.declarations[x.id]? = some v ∧ x = v.declared x.id := by
  simp only [Model.declared, List.mem_map, Prod.exists, List.mem_zipIdx_iff_getElem?]
  constructor
  · rintro ⟨v, id, hv, rfl⟩
    exact ⟨v, by rwa [v.id_declared], by rw [v.id_declared]⟩
  · rintro ⟨v, hv, hx⟩
    exact ⟨v, x.id, hv, hx.symm⟩

theorem exists_declares_of_mem_declared (hx : x ∈ d.declared) :
    ∃ v ∈ d.declarations, v.Declares x := by
  obtain ⟨v, hv, hxv⟩ := mem_declared_iff.mp hx
  exact ⟨v, List.mem_of_getElem? hv, hxv ▸ v.declares_declared x.id⟩

theorem eq_of_id_eq (hx : x ∈ d.declared) (hy : y ∈ d.declared) (h : x.id = y.id) : x = y := by
  obtain ⟨v, hv, hxv⟩ := mem_declared_iff.mp hx
  obtain ⟨w, hw, hyw⟩ := mem_declared_iff.mp hy
  rw [h] at hv
  obtain rfl := Option.some.inj (hv.symm.trans hw)
  calc x = v.declared x.id := hxv
    _ = v.declared y.id := by rw [h]
    _ = y := hyw.symm

end

/-! ## Functions -/

section

variable {declared : List (LinearProgram.Variable Float)} {f : Function} {place : Place}
  {g : LinearFunction Float}

theorem resolved_eq_ok_iff {s : Term} {t : LinearProgram.Term Float} :
    s.resolved declared place = .ok t ↔
      declared.find? (·.name = s.variableName) = some t.var ∧ t.factor = .real s.factor := by
  obtain ⟨v, k⟩ := t
  rw [Term.resolved]
  cases declared.find? (·.name = s.variableName) <;> simp [eq_comm]

/-- What a described function becomes, term by term. -/
theorem toFunction_eq_ok_iff : f.toFunction declared place = .ok g ↔
    List.Forall₂ (fun (s : Term) (t : LinearProgram.Term Float) =>
      declared.find? (·.name = s.variableName) = some t.var ∧ t.factor = .real s.factor)
      f.terms g.terms ∧ g.constant = f.constant := by
  obtain ⟨ts, c⟩ := g
  rw [toFunction_eq, bind_eq_ok_iff]
  simp only [mapM_eq_ok_iff, resolved_eq_ok_iff, Except.ok.injEq, LinearFunction.mk.injEq]
  constructor
  · rintro ⟨_, hts, rfl, rfl⟩
    exact ⟨hts, rfl⟩
  · rintro ⟨hts, rfl⟩
    exact ⟨ts, hts, rfl, rfl⟩

theorem toConstraint_eq_ok_iff {c : Constraint} {position : Nat} {k : LabeledConstraint Float} :
    c.toConstraint declared position = .ok k ↔
      c.function.toFunction declared (.ofConstraint position c.name) =
        .ok k.constraint.function ∧ k.constraint.comparison = c.comparison ∧
        k.constraint.constant = c.constant ∧ k.label? = some c.name := by
  obtain ⟨⟨g, comparison, constant⟩, label?⟩ := k
  have htoConstraint : c.toConstraint declared position =
      c.function.toFunction declared (.ofConstraint position c.name) >>= fun g =>
        .ok ⟨⟨g, c.comparison, c.constant⟩, some c.name⟩ := rfl
  rw [htoConstraint, bind_eq_ok_iff]
  simp only [Except.ok.injEq, LabeledConstraint.mk.injEq, LinearProgram.Constraint.mk.injEq]
  constructor
  · rintro ⟨_, hg, ⟨rfl, rfl, rfl⟩, rfl⟩
    exact ⟨hg, rfl, rfl, rfl⟩
  · rintro ⟨hg, rfl, rfl, rfl⟩
    exact ⟨g, hg, ⟨rfl, rfl, rfl⟩, rfl⟩

theorem name_eq_of_find? {name : Text} {x : LinearProgram.Variable Float}
    (h : declared.find? (·.name = name) = some x) : x.name = name := by
  simpa using List.find?_some h

/-- The value of a described function under values for names: those of its terms are added to the
constant in order. -/
def Function.value? (f : Function) (values : Text → Number Float) : Option Float :=
  f.terms.foldlM (fun sum s => do
    return sum + (← (← (values s.variableName).mul? (.real s.factor)).real?)) f.constant

theorem value?_of_toFunction (h : f.toFunction declared place = .ok g)
    (values : Text → Number Float) : g.value? values = f.value? values := by
  obtain ⟨hterms, hconstant⟩ := toFunction_eq_ok_iff.mp h
  rw [LinearFunction.value?, Function.value?, hconstant]
  refine foldlM_eq_of_forall₂ (hterms.imp fun s t hst c => ?_) f.constant
  rw [LinearProgram.Term.value?, hst.2, name_eq_of_find? hst.1]

theorem map_name_of_toFunction (h : f.toFunction declared place = .ok g) :
    g.terms.map (·.var.name) = f.terms.map (·.variableName) :=
  map_eq_map_of_forall₂ ((toFunction_eq_ok_iff.mp h).1.imp fun _ _ hst => name_eq_of_find? hst.1)

end

/-! ## Models -/

namespace Model

/-- The functions of a description, that of the objective first. -/
def functions (d : Model) : List Function :=
  (d.objective?.map (·.function)).toList ++ d.constraints.map (·.function)

/-- The names that terms use, in order. -/
def usedNames (d : Model) : List Text :=
  d.references.map (·.name)

theorem usedNames_eq (d : Model) :
    d.usedNames = d.functions.flatMap fun f => f.terms.map (·.variableName) := by
  have hfunction : ∀ (place : Place) (f : Function),
      (f.references place).map (·.name) = f.terms.map (·.variableName) := by
    intro place f
    rw [Function.references, List.map_map]
    rfl
  have hconstraints : d.constraints.map (·.function) =
      d.constraints.zipIdx.map fun p => p.1.function := by
    conv_lhs => rw [← List.zipIdx_map_fst 0 d.constraints, List.map_map]
    rfl
  rw [usedNames, references, functions, List.map_append, List.map_flatMap, List.map_flatMap,
    List.flatMap_append, hconstraints, List.flatMap_map]
  simp only [hfunction]
  cases d.objective? <;> simp

end Model

variable {d : Model} {m : LinearProgram.Model Float}

theorem forall₂_functions (h : d.toModel = .ok m) :
    List.Forall₂ (fun f g => ∃ place, f.toFunction d.declared place = .ok g)
      d.functions m.functions := by
  obtain ⟨_, _, hobjective, hconstraints⟩ := toModel_eq_ok_iff.mp h
  refine List.rel_append ?_ ?_
  · generalize d.objective? = o?, m.objective? = p? at hobjective ⊢
    cases hobjective with
    | none => exact .nil
    | some hop => exact .cons ⟨_, hop.1⟩ .nil
  · rw [← List.zipIdx_map_fst 0 d.constraints, List.map_map, List.forall₂_map_left_iff,
      List.forall₂_map_right_iff]
    exact hconstraints.imp fun p k hpk => ⟨_, (toConstraint_eq_ok_iff.mp hpk).1⟩

/-- The terms of the model use the names that those of the description use. -/
theorem map_name_terms (h : d.toModel = .ok m) : m.terms.map (·.var.name) = d.usedNames := by
  rw [Model.usedNames_eq, LinearProgram.Model.terms, List.map_flatMap]
  have hfunctions := (forall₂_functions h).imp fun f g hfg => by
    obtain ⟨_, hfg⟩ := hfg
    exact map_name_of_toFunction hfg
  generalize d.functions = fs, m.functions = gs at hfunctions ⊢
  induction hfunctions with
  | nil => rfl
  | cons hfg _ ih => rw [List.flatMap_cons, List.flatMap_cons, hfg, ih]

theorem mem_declared_of_mem_terms (h : d.toModel = .ok m) {t : LinearProgram.Term Float}
    (ht : t ∈ m.terms) : t.var ∈ d.declared := by
  obtain ⟨g, hg, htg⟩ := LinearProgram.Model.mem_terms_iff.mp ht
  exact (isMadeOf_of_toModel h g hg t htg).1

theorem injOn_name_declared (h : d.toModel = .ok m) :
    Set.InjOn (fun x : LinearProgram.Variable Float => x.name) {x | x ∈ d.declared} := by
  have hnodup : (d.declared.map (·.name)).Nodup := by
    rw [map_name_declared]
    exact (toModel_eq_ok_iff.mp h).1
  exact fun x hx y hy heq => List.inj_on_of_nodup_map hnodup hx hy heq

/-- The variables are the used names, each once, in the order of first use. -/
theorem map_name_vars (h : d.toModel = .ok m) :
    m.vars.map (·.name) = d.usedNames.eraseDups := by
  have hmem : ∀ x ∈ m.terms.map (·.var), x ∈ {x | x ∈ d.declared} :=
    List.forall_mem_map.mpr fun t ht => mem_declared_of_mem_terms h ht
  -- Names tell declared variables apart, so a repeated variable is a repeated name.
  rw [LinearProgram.Model.vars, ← eraseDups_map (injOn_name_declared h) hmem, List.map_map,
    ← map_name_terms h, Text.instBEq_eq]
  rfl

/-- Of variables with distinct names none is reported for its name. -/
theorem rule_ne_of_nodup_names (h : (m.vars.map (·.name)).Nodup) :
    ∀ e ∈ m.violations, e.rule ≠ .duplicateVariableName := by
  intro e he
  rw [LinearProgram.Model.violations, variableViolations_of_nodup h (by simp), List.mem_append,
    List.mem_append] at he
  obtain (he | he) | he := he
  · split_ifs at he
    · obtain rfl := List.mem_singleton.mp he
      simp [Violation.rule]
    · cases he
  · obtain ⟨v, _, he⟩ := List.mem_flatMap.mp he
    have hall : ∀ e ∈ v.violations, e.rule ≠ .duplicateVariableName := by
      unfold LinearProgram.Variable.violations
      split_ifs <;> simp [Violation.rule]
    exact hall e he
  · have hholder := holder?_of_mem_labelViolations he
    cases e with
    | duplicateVariableName v => cases hholder
    | _ => simp [Violation.rule]

/-- A function is what its description says, over variables that carry the declarations. -/
structure Model.Represents (d : Model) (f : Function) (g : LinearFunction Float) : Prop where
  constant : g.constant = f.constant
  terms : List.Forall₂ (fun (s : Term) (t : LinearProgram.Term Float) =>
    t.factor = .real s.factor ∧ t.var.name = s.variableName ∧
      ∃ v ∈ d.declarations, v.name = s.variableName ∧ v.Declares t.var) f.terms g.terms
  value : ∀ values, g.value? values = f.value? values

theorem represents_of_toFunction {f : Function} {place : Place} {g : LinearFunction Float}
    (h : f.toFunction d.declared place = .ok g) : d.Represents f g where
  constant := (toFunction_eq_ok_iff.mp h).2
  terms := by
    refine (toFunction_eq_ok_iff.mp h).1.imp fun s t hst => ?_
    obtain ⟨hfind, hfactor⟩ := hst
    obtain ⟨v, hv, hdeclares⟩ := exists_declares_of_mem_declared (List.mem_of_find?_eq_some hfind)
    have hname := name_eq_of_find? hfind
    exact ⟨hfactor, hname, v, hv, hdeclares.name.symm.trans hname, hdeclares⟩
  value := value?_of_toFunction h

/-- The model says what the description says, and shares its variables by name. -/
structure Model.IsFaithful (d : Model) (m : LinearProgram.Model Float) : Prop where
  name : m.name = d.name
  optimization : m.optimization = d.objective?.elim .minimize (·.optimization)
  objective : Option.Rel (fun (o : Objective) (p : LinearProgram.Objective Float) =>
    d.Represents o.function p.function ∧ p.optimization = o.optimization)
    d.objective? m.objective?
  constraints : List.Forall₂ (fun (c : Constraint) (k : LabeledConstraint Float) =>
    d.Represents c.function k.constraint.function ∧ k.constraint.comparison = c.comparison ∧
      k.constraint.constant = c.constant ∧ k.label? = some c.name)
    d.constraints m.constraints
  /-- One variable, and one identity, for each name. -/
  shares : ∀ t ∈ m.terms, ∀ u ∈ m.terms,
    (t.var = u.var ↔ t.var.name = u.var.name) ∧ (t.var.id = u.var.id ↔ t.var.name = u.var.name)
  vars : m.vars.map (·.name) = d.usedNames.eraseDups
  violations : ∀ e ∈ m.violations, e.rule ≠ .duplicateVariableName

theorem rel_objective (h : d.toModel = .ok m) :
    Option.Rel (fun (o : Objective) (p : LinearProgram.Objective Float) =>
      d.Represents o.function p.function ∧ p.optimization = o.optimization)
      d.objective? m.objective? := by
  obtain ⟨_, _, hobjective, _⟩ := toModel_eq_ok_iff.mp h
  generalize d.objective? = o?, m.objective? = p? at hobjective ⊢
  cases hobjective with
  | none => exact .none
  | some hop => exact .some ⟨represents_of_toFunction hop.1, hop.2⟩

theorem forall₂_constraints (h : d.toModel = .ok m) :
    List.Forall₂ (fun (c : Constraint) (k : LabeledConstraint Float) =>
      d.Represents c.function k.constraint.function ∧ k.constraint.comparison = c.comparison ∧
        k.constraint.constant = c.constant ∧ k.label? = some c.name)
      d.constraints m.constraints := by
  obtain ⟨_, _, _, hconstraints⟩ := toModel_eq_ok_iff.mp h
  rw [← List.zipIdx_map_fst 0 d.constraints, List.forall₂_map_left_iff]
  refine hconstraints.imp fun p k hpk => ?_
  obtain ⟨hfunction, hrest⟩ := toConstraint_eq_ok_iff.mp hpk
  exact ⟨represents_of_toFunction hfunction, hrest⟩

/-- **The model of a description is faithful to it**, and terms that use one name share one
variable. -/
theorem isFaithful_of_toModel (h : d.toModel = .ok m) : d.IsFaithful m where
  name := (toModel_eq_ok_iff.mp h).2.1
  optimization := by
    have hobjective := rel_objective h
    unfold LinearProgram.Model.optimization
    generalize d.objective? = o?, m.objective? = p? at hobjective ⊢
    cases hobjective with
    | none => rfl
    | some hop => exact hop.2
  objective := rel_objective h
  constraints := forall₂_constraints h
  shares t ht u hu := by
    have ht := mem_declared_of_mem_terms h ht
    have hu := mem_declared_of_mem_terms h hu
    have hname : t.var.name = u.var.name ↔ t.var = u.var := (injOn_name_declared h).eq_iff ht hu
    refine ⟨hname.symm, fun hid => hname.mpr (eq_of_id_eq ht hu hid), fun heq => ?_⟩
    rw [hname.mp heq]
  vars := map_name_vars h
  violations := rule_ne_of_nodup_names (nodup_names_of_toModel h)

def declaredB : Variable :=
  ⟨Text.ofString "b", .binary, none, some 0.5⟩

def declaredX : Variable :=
  ⟨Text.ofString "x", .real, none, some 4.0⟩

def declaredY : Variable :=
  ⟨Text.ofString "y", .integer, some 1.0, none⟩

def unusedDeclaration : Variable :=
  ⟨Text.ofString "unused", .integer, none, none⟩

/-- A description with declarations of all three domains, one of which no term uses and one of
which is used with factor 0 only, and with two constraints without names. -/
def sharedDescription : Model where
  name := Text.ofString "shared"
  declarations := [declaredB, declaredX, unusedDeclaration, declaredY]
  objective? := some
    ⟨⟨[⟨Text.ofString "y", 0.0⟩, ⟨Text.ofString "x", 2.5⟩, ⟨Text.ofString "x", 3.0⟩], 7.0⟩,
      .maximize⟩
  constraints := [
    ⟨⟨[⟨Text.ofString "x", 1.0⟩, ⟨Text.ofString "b", -1.0⟩], 0.0⟩, .lte, 6.0, []⟩,
    ⟨⟨[], 1.0⟩, .gte, 0.5, Text.ofString "bound"⟩,
    ⟨⟨[⟨Text.ofString "b", 5.0⟩], 2.0⟩, .eq, 2.0, []⟩]

/-- The model that it stands for. -/
def sharedModel : LinearProgram.Model Float :=
  let b : LinearProgram.Variable Float :=
    ⟨0, Text.ofString "b", .binary, some (.real 0.0), some (.real 0.5)⟩
  let x : LinearProgram.Variable Float := ⟨1, Text.ofString "x", .real, none, some (.real 4.0)⟩
  let y : LinearProgram.Variable Float := ⟨3, Text.ofString "y", .integer, some (.real 1.0), none⟩
  { name := Text.ofString "shared"
    objective? := some ⟨⟨[⟨y, .real 0.0⟩, ⟨x, .real 2.5⟩, ⟨x, .real 3.0⟩], 7.0⟩, .maximize⟩
    constraints := [
      ⟨⟨⟨[⟨x, .real 1.0⟩, ⟨b, .real (-1.0)⟩], 0.0⟩, .lte, 6.0⟩, some []⟩,
      ⟨⟨⟨[], 1.0⟩, .gte, 0.5⟩, some (Text.ofString "bound")⟩,
      ⟨⟨⟨[⟨b, .real 5.0⟩], 2.0⟩, .eq, 2.0⟩, some []⟩] }

theorem isFaithful_sharedModel :
    sharedDescription.toModel = .ok sharedModel ∧ sharedDescription.IsFaithful sharedModel := by
  have hmodel : sharedDescription.toModel = .ok sharedModel :=
    eq_ok_of_toOption (by decide +kernel)
  exact ⟨hmodel, isFaithful_of_toModel hmodel⟩

end LinearProgram.Description
