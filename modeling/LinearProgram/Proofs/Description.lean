import Mathlib
import LinearProgram.Description.Model
import LinearProgram.Proofs.NormalForm
/-!
# The models of descriptions

`toModel_eq_ok_iff` says when a description stands for a model, and for which.  Two things
follow.  All variables of the model are declared (`IsMadeOf`), so no two of them share a name
(`nodup_names_of_toModel`); and its factors are reals, so whatever is merged can be summed,
and the model has a normal form (`exists_normalizes_of_toModel`).
-/
namespace LinearProgram.Description

/-! ## Names -/

theorem duplicates_eq_nil_iff {names : List Text} : duplicates names = [] ↔ names.Nodup := by
  have hsort : ∀ l : List Text, l.mergeSort Text.le = [] ↔ l = [] := by
    intro l
    rw [← List.length_eq_zero_iff, List.length_mergeSort, List.length_eq_zero_iff]
  rw [duplicates, hsort, List.nodup_iff_count_le_one]
  simp only [List.filter_eq_nil_iff, List.mem_eraseDups, decide_eq_true_eq, not_lt]
  constructor
  · intro h name
    by_cases hname : name ∈ names
    · exact h name hname
    · simp [List.count_eq_zero_of_not_mem hname]
  · exact fun h name _ => h name

/-! ## Functions -/

/-- A function is made of declared variables and of reals. -/
def IsMadeOf (declared : List (LinearProgram.Variable Float)) (g : LinearFunction Float) : Prop :=
  ∀ t ∈ g.terms, t.var ∈ declared ∧ ∃ x, t.factor = .real x

variable {declared : List (LinearProgram.Variable Float)}

theorem isMadeOf_of_toFunction {f : Function} {place : Place} {g : LinearFunction Float}
    (h : f.toFunction declared place = .ok g) : IsMadeOf declared g := by
  obtain ⟨ts, hts, h⟩ := bind_eq_ok_iff.mp h
  obtain rfl := Except.ok.inj h
  intro t ht
  obtain ⟨s, _, hs⟩ := exists_mem_of_forall₂ (mapM_eq_ok_iff.mp hts).flip ht
  split at hs
  next v hv =>
    obtain rfl := Except.ok.inj hs
    exact ⟨List.mem_of_find?_eq_some hv, _, rfl⟩
  next => cases hs

theorem foldlM_add?_real {ks : List (Number Float)} (h : ∀ k ∈ ks, ∃ x, k = .real x)
    {a : Number Float} (ha : ∃ x, a.real? = some x) : ∃ k, ks.foldlM Number.add? a = some k := by
  induction ks generalizing a with
  | nil => exact ⟨a, rfl⟩
  | cons k ks ih =>
    obtain ⟨hk, hks⟩ := List.forall_mem_cons.mp h
    obtain ⟨x, rfl⟩ := hk
    obtain ⟨y, hy⟩ := ha
    have hadd : a.add? (.real x) = some (.real (y + x)) := by
      unfold Number.add?
      split
      next hx => cases hx
      next => simp [hy, show (Number.real x).real? = some x from rfl]
    rw [List.foldlM_cons, hadd]
    exact ih hks ⟨y + x, rfl⟩

/-- Reals can always be summed, because the integer 0 that the sum starts from is a double. -/
theorem combined?_real {ks : List (Number Float)} (h : ∀ k ∈ ks, ∃ x, k = .real x) :
    ∃ k, LinearFunction.combined? ks = some k := by
  have hzero : (Number.real? (.int 0) : Option Float).isSome := by decide +kernel
  have hsum : ∃ k, Number.sum? ks = some k :=
    foldlM_add?_real h (Option.isSome_iff_exists.mp hzero)
  unfold LinearFunction.combined?
  split
  · exact ⟨_, rfl⟩
  · exact hsum

theorem exists_normalized?_of_isMadeOf {g : LinearFunction Float} (h : IsMadeOf declared g) :
    ∃ n, g.normalized? = some n := by
  refine LinearFunction.exists_normalized?_of_combined fun p hp => combined?_real fun k hk => ?_
  obtain ⟨_, hvalues⟩ := mem_group.mp hp
  rw [hvalues, mem_valuesOf] at hk
  obtain ⟨t, ht, heq⟩ := List.mem_map.mp hk
  obtain ⟨_, x, hx⟩ := h t (List.mem_filter.mp ht).1
  exact ⟨x, by rw [← (Prod.mk.inj heq).2, hx]⟩

/-! ## Models -/

variable {d : Model} {m : LinearProgram.Model Float}

/-- When a description stands for a model, and for which. -/
theorem toModel_eq_ok_iff : d.toModel = .ok m ↔ (d.declarations.map (·.name)).Nodup ∧
    m.name = d.name ∧
    Option.Rel (fun (o : Objective) (p : LinearProgram.Objective Float) =>
      o.function.toFunction d.declared .objective = .ok p.function ∧
        p.optimization = o.optimization) d.objective? m.objective? ∧
    List.Forall₂ (fun (p : Constraint × Nat) (c : LabeledConstraint Float) =>
      p.1.toConstraint d.declared p.2 = .ok c) d.constraints.zipIdx m.constraints := by
  have hobjective : ∀ (o : Objective) (p : LinearProgram.Objective Float),
      (do return (⟨← o.function.toFunction d.declared .objective, o.optimization⟩ :
        LinearProgram.Objective Float) : Except Inconsistency _) = .ok p ↔
        o.function.toFunction d.declared .objective = .ok p.function ∧
          p.optimization = o.optimization := by
    rintro o ⟨g, direction⟩
    cases o.function.toFunction d.declared .objective <;>
      simp [bind, Except.bind, pure, Except.pure, eq_comm]
  rw [← duplicates_eq_nil_iff, ← List.isEmpty_iff]
  simp only [Model.toModel]
  cases hdup : (duplicates (d.declarations.map (·.name))).isEmpty with
  | false =>
    constructor
    · intro h
      cases h
    · rintro ⟨h, _⟩
      cases h
  | true =>
    simp only [Bool.not_true, Bool.false_eq_true, if_false, true_and]
    constructor
    · intro h
      obtain ⟨o?, ho, h⟩ := bind_eq_ok_iff.mp h
      obtain ⟨cs, hcs, h⟩ := bind_eq_ok_iff.mp h
      obtain rfl := Except.ok.inj h
      rw [mapM_option_eq_ok_iff] at ho
      simp only [hobjective] at ho
      exact ⟨rfl, ho, mapM_eq_ok_iff.mp hcs⟩
    · rintro ⟨hname, ho, hcs⟩
      obtain ⟨name, o?, cs⟩ := m
      obtain rfl := hname
      refine bind_eq_ok_iff.mpr ⟨o?, ?_, bind_eq_ok_iff.mpr ⟨cs, mapM_eq_ok_iff.mpr hcs, rfl⟩⟩
      rw [mapM_option_eq_ok_iff]
      simp only [hobjective]
      exact ho

theorem isMadeOf_of_toModel (h : d.toModel = .ok m) :
    ∀ g ∈ m.functions, IsMadeOf d.declared g := by
  obtain ⟨_, _, ho, hcs⟩ := toModel_eq_ok_iff.mp h
  intro g hg
  obtain hg | hg := List.mem_append.mp hg
  · generalize d.objective? = o?, m.objective? = p? at ho hg
    cases ho with
    | none => cases hg
    | some hop =>
      obtain rfl := List.mem_singleton.mp hg
      exact isMadeOf_of_toFunction hop.1
  · obtain ⟨c, hc, rfl⟩ := List.mem_map.mp hg
    obtain ⟨p, _, hp⟩ := exists_mem_of_forall₂ hcs.flip hc
    obtain ⟨f, hf, hp⟩ := bind_eq_ok_iff.mp hp
    obtain rfl := Except.ok.inj hp
    exact isMadeOf_of_toFunction hf

theorem map_name_declared (d : Model) :
    d.declared.map (·.name) = d.declarations.map (·.name) := by
  have hname : ∀ p : Variable × Nat, (p.1.declared p.2).name = p.1.name := by
    rintro ⟨⟨name, domain, lo?, hi?⟩, id⟩
    cases domain <;> rfl
  rw [Model.declared, List.map_map]
  conv_rhs => rw [← List.zipIdx_map_fst 0 d.declarations, List.map_map]
  exact List.map_congr_left fun p _ => hname p

/-- The variables of a model have the distinct names of their declarations. -/
theorem nodup_names_of_toModel (h : d.toModel = .ok m) : (m.vars.map (·.name)).Nodup := by
  have hdeclared : (d.declared.map (·.name)).Nodup := by
    rw [map_name_declared]
    exact (toModel_eq_ok_iff.mp h).1
  have hmem : ∀ v ∈ m.vars, v ∈ d.declared := by
    intro v hv
    obtain ⟨t, ht, rfl⟩ := Model.mem_vars_iff.mp hv
    obtain ⟨g, hg, htg⟩ := Model.mem_terms_iff.mp ht
    exact (isMadeOf_of_toModel h g hg t htg).1
  refine m.nodup_vars.map_on fun v hv w hw heq => ?_
  exact List.inj_on_of_nodup_map hdeclared (hmem v hv) (hmem w hw) heq

theorem exists_normalizes_of_toModel (h : d.toModel = .ok m) : ∃ n, m.Normalizes n :=
  Model.exists_normalizes_of_functions fun g hg =>
    exists_normalized?_of_isMadeOf (isMadeOf_of_toModel h g hg)

end LinearProgram.Description
