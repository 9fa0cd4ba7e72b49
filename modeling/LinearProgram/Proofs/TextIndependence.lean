import Mathlib
import LinearProgram.Proofs.Cbc.Reading
import LinearProgram.Proofs.InProcess.Result
import LinearProgram.Proofs.Mps.Numbers
import LinearProgram.Proofs.Renaming
/-!
# No text reaches a solver

What a user calls models, variables and constraints has no influence on what a solver gets.  The
main statement, `SameUpToTexts.handedAlike`, is about two models that differ only in such texts.
Their files have the same lines, each with a line feed at its end and no other; the programs that
are built of them are the same to an engine; and one solution file gives the same values to
variables that belong together, as long as names tell them apart.

## How the proof goes

The file is made of places and numbers, so each section comes out the same (`fileLines_eq`).  A
program refers to variables, and the program of the other model is the program with the other
variables in it (`ofModel?_renamed`); the engine gets places instead of variables, and the places
are the same (`handed_renamed`).  A solution file binds places as well.
-/
namespace LinearProgram

/-! ## What an engine gets -/

namespace InProcess

/-- A column as the engine gets it. -/
structure HandedColumn (R : Type) where
  name : String
  lower? : Option R
  upper? : Option R
  integral : Bool
deriving DecidableEq

/-- A row as the engine gets it: coefficients are set by the places of columns. -/
structure HandedRow (R : Type) where
  name : String
  lower? : Option R
  upper? : Option R
  settings : List (Nat × R)
deriving DecidableEq

/-- A program as the engine gets it. -/
structure Handed (R : Type) where
  backend : Backend
  columns : List (HandedColumn R)
  rows : List (HandedRow R)
  objective : List (Nat × R)
  offset : R
  maximize : Bool
deriving DecidableEq

variable {R : Type} [DecidableEq R]

/-- Coefficients by the places of their columns. -/
def Program.placed (p : Program R) (s : Settings R) : List (Nat × R) :=
  s.map fun q => ((p.columns.map (·.var)).idxOf q.1, q.2)

/-- The program as the engine gets it. -/
def Program.handed (p : Program R) : Handed R where
  backend := p.backend
  columns := p.columns.zipIdx.map fun c =>
    ⟨columnName c.2, c.1.lower?, c.1.upper?, c.1.integral⟩
  rows := p.rows.zipIdx.map fun r =>
    ⟨rowName r.2, r.1.lower?, r.1.upper?, p.placed r.1.settings⟩
  objective := p.placed p.objective
  offset := p.offset
  maximize := p.maximize

/-! ### Programs with other variables -/

omit [DecidableEq R]

/-- The column of another variable. -/
def Column.renamed (φ : Variable R → Variable R) (c : Column R) : Column R :=
  { c with var := φ c.var }

/-- Coefficients of other variables. -/
def Settings.renamed (φ : Variable R → Variable R) (s : Settings R) : Settings R :=
  s.map fun q => (φ q.1, q.2)

/-- The row with coefficients of other variables. -/
def BoundedRow.renamed (φ : Variable R → Variable R) (row : BoundedRow R) : BoundedRow R :=
  { row with settings := row.settings.renamed φ }

/-- The program with other variables. -/
def Program.renamed (φ : Variable R → Variable R) (p : Program R) : Program R :=
  { p with
    columns := p.columns.map (·.renamed φ)
    rows := p.rows.map (·.renamed φ)
    objective := p.objective.renamed φ }

theorem backendFor_eq [DecidableEq R] {φ : Variable R → Variable R} {m n : Model R}
    (h : m.SameUpToTexts φ n) : backendFor n = backendFor m := by
  have hall : n.vars.all (!·.isIntegral) = m.vars.all (!·.isIntegral) := by
    rw [h.vars_eq, List.all_map, Bool.eq_iff_iff, List.all_eq_true, List.all_eq_true]
    refine forall₂_congr fun v hv => ?_
    rw [Function.comp_apply, h.isIntegral_eq hv]
  rw [backendFor, backendFor, hall]

section

variable [Scalar R] {φ : Variable R → Variable R}

theorem settingsOf?_renamed (f : LinearFunction R) :
    settingsOf? (f.renamed φ) = (settingsOf? f).map (·.renamed φ) := by
  refine mapM_map_eq fun t _ => ?_
  rw [Term.renamed]
  cases t.factor.real? <;> rfl

theorem rowOf?_renamed (c : Constraint R) :
    BoundedRow.of? (c.renamed φ) = (BoundedRow.of? c).map (·.renamed φ) := by
  have hsettings : settingsOf? (c.renamed φ).function
      = (settingsOf? c.function).map (·.renamed φ) := settingsOf?_renamed c.function
  rw [BoundedRow.of?, BoundedRow.of?, hsettings, Option.map_map, Option.map_map]
  congr 1
  funext s
  rw [Function.comp_apply, Function.comp_apply, Constraint.renamed]
  cases c.comparison <;> rfl

variable [DecidableEq R] {m n : Model R} (h : m.SameUpToTexts φ n)

include h

theorem columnOf?_renamed {v : Variable R} (hv : v ∈ m.vars) :
    Column.of? (φ v) = (Column.of? v).map (·.renamed φ) := by
  rw [Column.of?, Column.of?, h.minimum v hv, h.maximum v hv, h.isIntegral_eq hv]
  cases v.minimum?.mapM Number.real? with
  | none => rfl
  | some l => cases v.maximum?.mapM Number.real? <;> rfl

/-- A model in normal form with other variables makes the program with these. -/
theorem ofNormal?_renamed : Program.ofNormal? n = (Program.ofNormal? m).map (·.renamed φ) := by
  have hcolumns : n.vars.mapM Column.of?
      = (m.vars.mapM Column.of?).map (List.map (·.renamed φ)) := by
    rw [h.vars_eq]
    exact mapM_map_eq fun v hv => columnOf?_renamed h hv
  have hrows : n.constraints.mapM (BoundedRow.of? ·.constraint)
      = (m.constraints.mapM (BoundedRow.of? ·.constraint)).map (List.map (·.renamed φ)) := by
    have hlist : n.constraints.mapM (BoundedRow.of? ·.constraint)
        = (n.constraints.map (·.constraint)).mapM BoundedRow.of? := by
      rw [List.mapM_map]
      rfl
    rw [hlist, h.constraints]
    exact mapM_map_eq fun c _ => rowOf?_renamed c.constraint
  have hobjective : (n.objective?.map (·.function)).elim (some []) settingsOf?
      = ((m.objective?.map (·.function)).elim (some []) settingsOf?).map
          (Settings.renamed φ) := by
    rw [h.objective]
    cases m.objective? with
    | none => rfl
    | some o => exact settingsOf?_renamed o.function
  have hoffset : (n.objective?.map (·.function.constant)).getD 0
      = (m.objective?.map (·.function.constant)).getD 0 := by
    rw [h.objective]
    cases m.objective? <;> rfl
  have hmaximize : n.maximizes = m.maximizes := by
    rw [Model.maximizes, Model.maximizes, h.optimization_eq]
  rw [Program.ofNormal?, Program.ofNormal?, hcolumns, hrows, hobjective, hoffset, hmaximize,
    backendFor_eq h]
  cases m.vars.mapM Column.of? with
  | none => rfl
  | some columns =>
    cases m.constraints.mapM (BoundedRow.of? ·.constraint) with
    | none => rfl
    | some rows => cases (m.objective?.map (·.function)).elim (some []) settingsOf? <;> rfl

/-- The places of other variables are those of the variables. -/
theorem handed_renamed {p : Program R} (hp : Describes p m) :
    (p.renamed φ).handed = p.handed := by
  have hcolumns : (p.renamed φ).columns.map (·.var) = (p.columns.map (·.var)).map φ := by
    simp only [Program.renamed, List.map_map]
    rfl
  have hvars : ∀ v ∈ p.columns.map (·.var), v ∈ {v | v ∈ m.vars} := by
    rw [hp.columns_var]
    exact fun v hv => hv
  have hplaced : ∀ s ∈ p.allSettings, (p.renamed φ).placed (s.renamed φ) = p.placed s := by
    intro s hs
    rw [Program.placed, Program.placed, Settings.renamed, hcolumns, List.map_map]
    refine List.map_congr_left fun q hq => ?_
    have hq := hvars _ (hp.mem_columns_of_mem_settings hs hq)
    rw [Function.comp_apply, idxOf_map h.injOn hq hvars]
  have hobjective := hplaced p.objective (List.mem_cons_self ..)
  have hrows : ∀ r ∈ p.rows.zipIdx,
      (p.renamed φ).placed (r.1.settings.renamed φ) = p.placed r.1.settings := by
    intro r hr
    exact hplaced _ (List.mem_cons_of_mem _
      (List.mem_map.mpr ⟨r.1, List.fst_mem_of_mem_zipIdx hr, rfl⟩))
  simp only [Program.handed, Handed.mk.injEq]
  refine ⟨rfl, ?_, ?_, hobjective, rfl, rfl⟩
  · simp only [Program.renamed, List.zipIdx_map, List.map_map]
    rfl
  · have hrenamed : (p.renamed φ).rows = p.rows.map (·.renamed φ) := rfl
    rw [hrenamed, List.zipIdx_map, List.map_map]
    refine List.map_congr_left fun r hr => ?_
    rw [← hrows r hr]
    rfl

/-- **The program of a model with other variables** is its program with the other variables. -/
theorem ofModel?_renamed (available : Bool) :
    Program.ofModel? available n = (Program.ofModel? available m).map (·.renamed φ) := by
  have hnormal := h.rel_normalized?
  unfold Program.ofModel?
  generalize m.normalized? = m?, n.normalized? = n? at hnormal ⊢
  cases hnormal with
  | none => rfl
  | @some m' n' hnormal =>
    cases available with
    | false =>
      simp only [Bool.not_false, if_true, backendFor_eq hnormal]
      rfl
    | true =>
      simp only [Bool.not_true, Bool.false_eq_true, if_false, ofNormal?_renamed hnormal]
      cases Program.ofNormal? m' <;> rfl

/-- To the engine the programs are the same, and what hinders building one hinders the other. -/
theorem map_handed_eq (available : Bool) :
    (Program.ofModel? available n).map Program.handed
      = (Program.ofModel? available m).map Program.handed := by
  rw [ofModel?_renamed h available]
  cases hp : Program.ofModel? available m with
  | error e => rfl
  | ok p =>
    cases hm : m.normalized? with
    | none => simp [Program.ofModel?, hm] at hp
    | some m' =>
      have hnormal := h.rel_normalized?
      rw [hm] at hnormal
      generalize n.normalized? = n? at hnormal
      cases hnormal with
      | some hnormal =>
        exact congrArg Except.ok (handed_renamed hnormal (describes_of_ofModel? hm hp))

end

end InProcess

/-! ## The file -/

namespace Mps

variable {φ : Variable Float → Variable Float} {m n : Model Float} (h : m.SameUpToTexts φ n)

include h

/-- The constraints with their places. -/
theorem zipIdx_constraints_eq : n.constraints.zipIdx.map (fun p => (p.1.constraint, p.2))
    = m.constraints.zipIdx.map fun p => (p.1.constraint.renamed φ, p.2) := by
  have hplaces : ∀ (f : LabeledConstraint Float → Constraint Float)
      (cs : List (LabeledConstraint Float)),
      cs.zipIdx.map (fun p => (f p.1, p.2)) = (cs.map f).zipIdx := by
    intro f cs
    rw [List.zipIdx_map]
    rfl
  rw [hplaces (·.constraint), hplaces (·.constraint.renamed φ), h.constraints]

theorem entriesOf_renamed {v : Variable Float} (hv : v ∈ m.vars) :
    n.entriesOf (φ v) = m.entriesOf v := by
  have hfunction : ∀ (row : Row) (f : LinearFunction Float),
      (f.renamed φ).entries row = (f.entries row).map fun e => (φ e.1, e.2) := by
    intro row f
    simp only [LinearFunction.entries, LinearFunction.nonzeroTerms, LinearFunction.renamed,
      List.filter_map, List.map_map]
    rfl
  have hconstraints : n.constraints.zipIdx.flatMap
        (fun p => p.1.constraint.function.entries (.constraint p.2))
      = (m.constraints.zipIdx.flatMap fun p =>
          p.1.constraint.function.entries (.constraint p.2)).map fun e => (φ e.1, e.2) := by
    have hplaces := congrArg (List.flatMap fun q : Constraint Float × Nat =>
      q.1.function.entries (.constraint q.2)) (zipIdx_constraints_eq h)
    rw [List.flatMap_map, List.flatMap_map] at hplaces
    rw [hplaces, List.map_flatMap]
    exact List.flatMap_congr fun p _ => hfunction _ _
  have hobjective : n.objective?.toList.flatMap (·.function.entries .objective)
      = (m.objective?.toList.flatMap (·.function.entries .objective)).map
          fun e => (φ e.1, e.2) := by
    rw [h.objective]
    cases m.objective? with
    | none => rfl
    | some o => simpa [Objective.renamed] using hfunction .objective o.function
  have hentries : n.entries = m.entries.map fun e => (φ e.1, e.2) := by
    rw [Model.entries, Model.entries, List.map_append, hconstraints, hobjective]
  have hvars : ∀ e ∈ m.entries, e.1 ∈ {v | v ∈ m.vars} := by
    have hentry : ∀ f ∈ m.functions, ∀ row, ∀ e ∈ f.entries row, e.1 ∈ m.vars := by
      intro f hf row e he
      obtain ⟨t, ht, rfl⟩ := List.mem_map.mp he
      exact Model.var_mem_vars hf (List.mem_filter.mp ht).1
    intro e he
    obtain he | he := List.mem_append.mp he
    · obtain ⟨p, hp, he⟩ := List.mem_flatMap.mp he
      exact hentry _ (Model.function_mem_functions (List.fst_mem_of_mem_zipIdx hp)) _ e he
    · obtain ⟨o, ho, he⟩ := List.mem_flatMap.mp he
      exact hentry _ (Model.objective_mem_functions (Option.mem_toList.mp ho)) _ e he
  rw [Model.entriesOf, Model.entriesOf, hentries, valuesOf_map h.injOn hv hvars]

theorem rowLines_eq : rowLines n = rowLines m := by
  have hplaces := congrArg (List.map fun q : Constraint Float × Nat =>
    Line.constraintRow q.1.comparison q.2) (zipIdx_constraints_eq h)
  rw [List.map_map, List.map_map] at hplaces
  have hobjective : n.objective?.toList.map (fun _ => Line.objectiveRow)
      = m.objective?.toList.map fun _ => Line.objectiveRow := by
    rw [h.objective]
    cases m.objective? <;> rfl
  rw [rowLines, rowLines, hobjective]
  exact congrArg _ hplaces

theorem columnLines_eq : columnLines n = columnLines m := by
  rw [columnLines, columnLines, h.vars_eq, List.zipIdx_map, List.flatMap_map]
  congr 1
  refine List.flatMap_congr fun p hp => ?_
  have hv : p.1 ∈ m.vars := List.fst_mem_of_mem_zipIdx hp
  simp only [columnBlock, Prod.map_fst, Prod.map_snd, id_eq, entriesOf_renamed h hv,
    h.isIntegral_eq hv]

theorem rhsLines_eq : rhsLines n = rhsLines m := by
  have hplaces := congrArg (List.map fun q : Constraint Float × Nat =>
    (numberText? (.real q.1.rightHandSide)).map (Line.rightHandSide q.2)) (zipIdx_constraints_eq h)
  rw [List.map_map, List.map_map] at hplaces
  rw [rhsLines, rhsLines]
  exact congrArg _ hplaces

theorem boundLines_eq : boundLines n = boundLines m := by
  have hbinary : ∀ v ∈ m.vars, (φ v).isBinary = v.isBinary := by
    intro v hv
    rw [Variable.isBinary, Variable.isBinary, h.isIntegral_eq hv, Variable.hasUnitBounds,
      Variable.hasUnitBounds, h.minimum v hv, h.maximum v hv]
  have hfilter : ∀ p ∈ m.vars.zipIdx,
      ((φ p.1).isBinary && !(n.entriesOf (φ p.1)).isEmpty)
        = (p.1.isBinary && !(m.entriesOf p.1).isEmpty) := by
    intro p hp
    have hv : p.1 ∈ m.vars := List.fst_mem_of_mem_zipIdx hp
    rw [hbinary p.1 hv, entriesOf_renamed h hv]
  rw [boundLines, boundLines, h.vars_eq, List.zipIdx_map, List.filter_map, List.map_map]
  congr 2
  exact List.filter_congr hfilter

/-- **The file has the same lines.** -/
theorem fileLines_eq : fileLines n = fileLines m := by
  rw [fileLines, fileLines, h.optimization_eq, rowLines_eq h, columnLines_eq h, rhsLines_eq h,
    boundLines_eq h]

end Mps

/-! ## Both solvers -/

/-- What one solver gets and answers for a model, the other gets and answers for the other. -/
structure HandedAlike (φ : Variable Float → Variable Float) (m n : Model Float) : Prop where
  lines : Mps.fileLines n = Mps.fileLines m
  /-- A line ends in a line feed, its only one. -/
  newline : ∀ l, some l ∈ Mps.fileLines m →
    ∃ body, l.text.toList = body ++ ['\n'] ∧ '\n' ∉ body
  program : ∀ available, (InProcess.Program.ofModel? available n).map InProcess.Program.handed
    = (InProcess.Program.ofModel? available m).map InProcess.Program.handed
  status : ∀ text, (Cbc.readSolution text n).status = (Cbc.readSolution text m).status
  values : (m.vars.map (·.name)).Nodup → (n.vars.map (·.name)).Nodup →
    ∀ text, ∀ v ∈ m.vars, ∀ x, ((φ v).name, x) ∈ (Cbc.readSolution text n).values ↔
      (v.name, x) ∈ (Cbc.readSolution text m).values

namespace Model

variable {φ : Variable Float → Variable Float} {m n : Model Float}

/-- **What a user calls things does not influence what a solver gets**, or how its answer is
understood. -/
theorem SameUpToTexts.handedAlike (h : m.SameUpToTexts φ n) : HandedAlike φ m n where
  lines := Mps.fileLines_eq h
  newline l hl :=
    ⟨l.body, Mps.text_eq_body_newline (Mps.isWritten_of_mem_fileLines hl)⟩
  program := InProcess.map_handed_eq h
  status _ := rfl
  values hm hn text v hv x := by
    obtain ⟨k, hk⟩ := List.mem_iff_getElem?.mp hv
    have hk' : n.vars[k]? = some (φ v) := by rw [h.vars_eq, List.getElem?_map, hk, Option.map_some]
    simp only [Cbc.mem_values_iff, Cbc.LastBetween, Cbc.selects_iff_binds hm hk,
      Cbc.selects_iff_binds hn hk']

/-- A model with two variables, called as one likes. -/
def calledModel (name : String) (x y : Variable Float) (label? : Option Text) : Model Float where
  name := Text.ofString name
  objective? := some ⟨⟨[⟨x, .int 2⟩, ⟨y, .real 0.5⟩, ⟨x, .bool true⟩], 1.0⟩, .maximize⟩
  constraints := [⟨⟨⟨[⟨y, .int 3⟩, ⟨x, .real 1.5⟩], 2.0⟩, .lte, 6.0⟩, label?⟩]

/-- A real variable and a binary one. -/
def realCalled (id : Nat) (name : String) : Variable Float :=
  .declare id (Text.ofString name) .real none (some (.int 4))

def binaryCalled (id : Nat) (name : String) : Variable Float :=
  .declare id (Text.ofString name) .binary none none

def plainModel : Model Float :=
  calledModel "plain" (realCalled 0 "x") (binaryCalled 1 "y") (some (Text.ofString "limit"))

/-- The same model with names that look like lines of a file and like columns. -/
def hostileModel : Model Float :=
  calledModel "m\nENDATA\n" (realCalled 9 "X0000001 é") (binaryCalled 4 "\nRHS\nENDATA\n") none

/-- The variables of the one model in the places of those of the other. -/
def toHostile (v : Variable Float) : Variable Float :=
  if v.id = 0 then realCalled 9 "X0000001 é" else binaryCalled 4 "\nRHS\nENDATA\n"

theorem handedAlike_hostileModel : plainModel.SameUpToTexts toHostile hostileModel ∧
    (plainModel.vars.map (·.name)).Nodup ∧ (hostileModel.vars.map (·.name)).Nodup ∧
    HandedAlike toHostile plainModel hostileModel := by
  have hinj : ∀ v ∈ plainModel.vars, ∀ w ∈ plainModel.vars, toHostile v = toHostile w → v = w := by
    decide +kernel
  have hsame : plainModel.SameUpToTexts toHostile hostileModel := by
    refine ⟨fun v hv w hw => hinj v hv w hw, ?_, ?_, ?_, ?_, ?_⟩
    all_goals decide +kernel
  exact ⟨hsame, by decide +kernel, by decide +kernel, hsame.handedAlike⟩

end Model

end LinearProgram
