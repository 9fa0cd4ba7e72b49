import Mathlib
import LinearProgram.InProcess.Program
import LinearProgram.Proofs.NormalForm
/-!
# What a program holds

Facts about `Program.ofNormal?` over any field of reals.  `Describes` says part by
part what a program takes from a model, and `ofNormal?_eq_some_iff` that building
does just that.

The solver sets coefficients by replacing, and knows only the columns it was given.
For a model in normal form neither loses anything: the variables set in a row are
those of its terms (`keys_of_settingsOf?`), so no one is set twice and each has a
column.
-/
namespace LinearProgram.InProcess

variable {R : Type} [Scalar R]

/-! ## Coefficients -/

/-- A function sets one coefficient for each of its terms, in order. -/
theorem settingsOf?_eq_some_iff {f : LinearFunction R} {s : Settings R} :
    settingsOf? f = some s ↔
      List.Forall₂ (fun t (q : Variable R × R) => q.1 = t.var ∧ t.factor.real? = some q.2)
        f.terms s := by
  have hterm : ∀ (t : Term R) (q : Variable R × R),
      (do return (t.var, ← t.factor.real?)) = some q ↔ q.1 = t.var ∧ t.factor.real? = some q.2 := by
    intro t q
    obtain ⟨v, x⟩ := q
    cases t.factor.real? <;> simp [eq_comm]
  rw [settingsOf?, mapM_eq_some_iff]
  exact ⟨fun h => h.imp fun t q => (hterm t q).mp, fun h => h.imp fun t q => (hterm t q).mpr⟩

/-- The variables set are those of the terms. -/
theorem keys_of_settingsOf? {f : LinearFunction R} {s : Settings R} (h : settingsOf? f = some s) :
    s.map (·.1) = f.terms.map (·.var) :=
  map_eq_map_of_forall₂ ((settingsOf?_eq_some_iff.mp h).imp fun _ _ => And.left)

/-- The coefficient of a term is its factor as a real. -/
theorem mem_settings_of_mem_terms {f : LinearFunction R} {s : Settings R}
    (h : settingsOf? f = some s) {t : Term R} (ht : t ∈ f.terms) :
    ∃ x, t.factor.real? = some x ∧ (t.var, x) ∈ s := by
  obtain ⟨k, hk⟩ := List.mem_iff_getElem?.mp ht
  obtain ⟨q, hq, hvar, hx⟩ := forall₂_getElem? (settingsOf?_eq_some_iff.mp h) hk
  exact ⟨q.2, hx, hvar ▸ List.mem_of_getElem? hq⟩

/-! ## Columns and rows -/

/-- A column takes over what was declared of its variable. -/
theorem columnOf?_eq_some_iff {v : Variable R} {c : Column R} :
    Column.of? v = some c ↔
      c.var = v ∧ v.minimum?.mapM Number.real? = some c.lower? ∧
        v.maximum?.mapM Number.real? = some c.upper? ∧ c.integral = v.isIntegral := by
  obtain ⟨var, lower?, upper?, integral⟩ := c
  unfold Column.of?
  cases v.minimum?.mapM Number.real? with
  | none => simp
  | some l =>
    cases v.maximum?.mapM Number.real? with
    | none => simp
    | some u =>
      simp only [Option.pure_def, Option.bind_eq_bind, Option.bind_some, Option.some.injEq,
        Column.mk.injEq, eq_comm (a := v)]
      tauto

/-- A variable whose bounds are reals, or can be made so, has a column. -/
theorem exists_column {v : Variable R} (hlower : ∀ k ∈ v.minimum?, ∃ x, k.real? = some x)
    (hupper : ∀ k ∈ v.maximum?, ∃ x, k.real? = some x) : ∃ c, Column.of? v = some c := by
  have hbound : ∀ {k? : Option (Number R)}, (∀ k ∈ k?, ∃ x, k.real? = some x) →
      ∃ x?, k?.mapM Number.real? = some x? := by
    intro k? h
    cases k? with
    | none => exact ⟨none, rfl⟩
    | some k =>
      obtain ⟨x, hx⟩ := h k rfl
      exact ⟨some x, by simp [hx]⟩
  obtain ⟨lower?, hlower⟩ := hbound hlower
  obtain ⟨upper?, hupper⟩ := hbound hupper
  exact ⟨⟨v, lower?, upper?, v.isIntegral⟩,
    columnOf?_eq_some_iff.mpr ⟨rfl, hlower, hupper, rfl⟩⟩

/-- The bound that a comparison sets from below, if it sets one. -/
def lowerFor (c : Comparison) (r : R) : Option R :=
  if c = .lte then none else some r

/-- The bound that a comparison sets from above, if it sets one. -/
def upperFor (c : Comparison) (r : R) : Option R :=
  if c = .gte then none else some r

/-- A row is bounded by the right-hand side from the sides that the comparison says. -/
theorem rowOf?_eq_some_iff {c : Constraint R} {row : BoundedRow R} :
    BoundedRow.of? c = some row ↔
      settingsOf? c.function = some row.settings ∧
        row.lower? = lowerFor c.comparison c.rightHandSide ∧
        row.upper? = upperFor c.comparison c.rightHandSide := by
  obtain ⟨lower?, upper?, settings⟩ := row
  unfold BoundedRow.of? lowerFor upperFor
  cases settingsOf? c.function with
  | none => simp
  | some s =>
    simp only [Option.map_some, Option.some.injEq]
    cases c.comparison <;>
      simp only [BoundedRow.mk.injEq, reduceCtorEq, if_true, if_false, eq_comm] <;> tauto

/-! ## Programs -/

variable [DecidableEq R]

/-- Part by part, what a program takes from a model. -/
structure Describes (p : Program R) (m : Model R) : Prop where
  columns : List.Forall₂ (fun v c => Column.of? v = some c) m.vars p.columns
  rows : List.Forall₂ (fun (c : LabeledConstraint R) r => BoundedRow.of? c.constraint = some r)
    m.constraints p.rows
  objective : (m.objective?.map (·.function)).elim (some []) settingsOf? = some p.objective
  offset : p.offset = (m.objective?.map (·.function.constant)).getD 0
  maximize : p.maximize = m.maximizes
  backend : p.backend = backendFor m

theorem ofNormal?_eq_some_iff {m : Model R} {p : Program R} :
    Program.ofNormal? m = some p ↔ Describes p m := by
  constructor
  · intro h
    obtain ⟨columns, hcolumns, h⟩ := Option.bind_eq_some_iff.mp h
    obtain ⟨rows, hrows, h⟩ := Option.bind_eq_some_iff.mp h
    obtain ⟨objective, hobjective, h⟩ := Option.bind_eq_some_iff.mp h
    obtain rfl := Option.some.inj h
    exact ⟨mapM_eq_some_iff.mp hcolumns, mapM_eq_some_iff.mp hrows, hobjective, rfl, rfl, rfl⟩
  · rintro ⟨hcolumns, hrows, hobjective, hoffset, hmaximize, hbackend⟩
    obtain ⟨backend, columns, rows, objective, offset, maximize⟩ := p
    simp only at hcolumns hrows hobjective hoffset hmaximize hbackend
    subst hoffset hmaximize hbackend
    rw [Program.ofNormal?, mapM_eq_some_iff.mpr hcolumns, mapM_eq_some_iff.mpr hrows, hobjective]
    rfl

/-- A model that can be merged, and then described, is handed over so. -/
theorem ofModel?_eq_ok {m n : Model R} (hn : m.Normalizes n) {p : Program R}
    (hp : Describes p n) : Program.ofModel? true m = .ok p := by
  rw [Program.ofModel?, Model.normalized?_eq_some_iff.mpr hn]
  simp [ofNormal?_eq_some_iff.mpr hp]

section

variable {m : Model R} {p : Program R}

/-- A model whose factors and bounds are reals, or can be made so, can be described. -/
theorem exists_describes (hfactors : ∀ t ∈ m.terms, ∃ x, t.factor.real? = some x)
    (hcolumns : ∀ v ∈ m.vars, ∃ c, Column.of? v = some c) : ∃ p, Describes p m := by
  have hsettings : ∀ f ∈ m.functions, ∃ s, settingsOf? f = some s := by
    intro f hf
    have hterms : ∀ t ∈ f.terms, ∃ q : Variable R × R, q.1 = t.var ∧ t.factor.real? = some q.2 := by
      intro t ht
      obtain ⟨x, hx⟩ := hfactors t (Model.mem_terms_iff.mpr ⟨f, hf, ht⟩)
      exact ⟨(t.var, x), rfl, hx⟩
    obtain ⟨s, hs⟩ := exists_forall₂ hterms
    exact ⟨s, settingsOf?_eq_some_iff.mpr hs⟩
  have hbounded : ∀ c ∈ m.constraints, ∃ row, BoundedRow.of? c.constraint = some row := by
    intro c hc
    obtain ⟨s, hs⟩ := hsettings _ (Model.function_mem_functions hc)
    exact ⟨⟨_, _, s⟩, rowOf?_eq_some_iff.mpr ⟨hs, rfl, rfl⟩⟩
  obtain ⟨columns, hcolumns⟩ := exists_forall₂ hcolumns
  obtain ⟨rows, hrows⟩ := exists_forall₂ hbounded
  have hobjective : ∃ s, (m.objective?.map (·.function)).elim (some []) settingsOf? = some s := by
    cases ho : m.objective? with
    | none => exact ⟨[], rfl⟩
    | some o => exact hsettings _ (Model.objective_mem_functions ho)
  obtain ⟨objective, hobjective⟩ := hobjective
  exact ⟨⟨backendFor m, columns, rows, objective, _, m.maximizes⟩, hcolumns, hrows, hobjective,
    rfl, rfl, rfl⟩

theorem Describes.settings_objective (h : Describes p m) {o : Objective R}
    (ho : m.objective? = some o) : settingsOf? o.function = some p.objective := by
  have hobjective := h.objective
  rwa [ho] at hobjective

/-- Without an objective nothing is set. -/
theorem Describes.objective_eq_nil (h : Describes p m) (hm : m.objective? = none) :
    p.objective = [] := by
  have hobjective := h.objective
  rw [hm] at hobjective
  exact (Option.some.inj hobjective).symm

/-- The columns are those of the variables of the model, in order. -/
theorem Describes.columns_var (h : Describes p m) : p.columns.map (·.var) = m.vars := by
  have hvars := map_eq_map_of_forall₂ (f := id)
    (h.columns.imp fun _ _ hvc => (columnOf?_eq_some_iff.mp hvc).1)
  rwa [List.map_id] at hvars

theorem Describes.nodup_columns (h : Describes p m) : (p.columns.map (·.var)).Nodup := by
  rw [h.columns_var]
  exact Model.nodup_vars m

theorem Describes.of_mem_columns (h : Describes p m) {c : Column R} (hc : c ∈ p.columns) :
    Column.of? c.var = some c := by
  obtain ⟨k, hk⟩ := List.mem_iff_getElem?.mp hc
  obtain ⟨v, _, hv⟩ := forall₂_getElem? h.columns.flip hk
  rwa [(columnOf?_eq_some_iff.mp hv).1]

/-- The engine is the one for continuous programs if no column is integral. -/
theorem Describes.backend_eq_continuous_iff (h : Describes p m) :
    p.backend = .continuous ↔ ∀ c ∈ p.columns, c.integral = false := by
  have hintegral : p.columns.map (·.integral) = m.vars.map (·.isIntegral) :=
    map_eq_map_of_forall₂ (h.columns.imp fun _ _ hvc => (columnOf?_eq_some_iff.mp hvc).2.2.2)
  have hall : (∀ c ∈ p.columns, c.integral = false) ↔ ∀ v ∈ m.vars, v.isIntegral = false := by
    rw [← List.forall_mem_map (f := fun c : Column R => c.integral) (P := (· = false)),
      hintegral, List.forall_mem_map]
  rw [h.backend, hall, backendFor]
  simp [List.all_eq_true]

/-- The settings of a row come from the function of its constraint. -/
theorem Describes.settings_of_mem_rows (h : Describes p m) {row : BoundedRow R}
    (hrow : row ∈ p.rows) : ∃ f ∈ m.functions, settingsOf? f = some row.settings := by
  obtain ⟨k, hk⟩ := List.mem_iff_getElem?.mp hrow
  obtain ⟨c, hc, hrow⟩ := forall₂_getElem? h.rows.flip hk
  exact ⟨_, Model.function_mem_functions (List.mem_of_getElem? hc),
    (rowOf?_eq_some_iff.mp hrow).1⟩

/-- All settings of a program: of its rows, and of its objective. -/
def Program.allSettings (p : Program R) : List (Settings R) :=
  p.objective :: p.rows.map (·.settings)

theorem Describes.settings_of_mem (h : Describes p m) {s : Settings R}
    (hs : s ∈ p.allSettings) : s = [] ∨ ∃ f ∈ m.functions, settingsOf? f = some s := by
  rcases List.mem_cons.mp hs with rfl | hs
  · cases hm : m.objective? with
    | none => exact .inl (h.objective_eq_nil hm)
    | some o =>
      exact .inr ⟨o.function, Model.objective_mem_functions hm, h.settings_objective hm⟩
  · obtain ⟨row, hrow, rfl⟩ := List.mem_map.mp hs
    exact .inr (h.settings_of_mem_rows hrow)

/-- Every variable that is set has a column. -/
theorem Describes.mem_columns_of_mem_settings (h : Describes p m) {s : Settings R}
    (hs : s ∈ p.allSettings) {q : Variable R × R} (hq : q ∈ s) :
    q.1 ∈ p.columns.map (·.var) := by
  rcases h.settings_of_mem hs with rfl | ⟨f, hf, hfs⟩
  · cases hq
  · have hkey : q.1 ∈ f.terms.map (·.var) := keys_of_settingsOf? hfs ▸ List.mem_map_of_mem hq
    obtain ⟨t, ht, hvar⟩ := List.mem_map.mp hkey
    rw [h.columns_var, ← hvar]
    exact Model.var_mem_vars hf ht

/-- For a model in normal form no coefficient is set twice in a row. -/
theorem Describes.nodup_settings (h : Describes p m)
    (hnormal : ∀ f ∈ m.functions, f.IsNormal) {s : Settings R} (hs : s ∈ p.allSettings) :
    (s.map (·.1)).Nodup := by
  rcases h.settings_of_mem hs with rfl | ⟨f, hf, hfs⟩
  · exact List.nodup_nil
  · rw [keys_of_settingsOf? hfs]
    exact (hnormal f hf).nodup

end

end LinearProgram.InProcess
