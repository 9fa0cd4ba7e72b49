import LinearProgram.Model
/-!
# Handing a model to the solver in the process

The in-process solver takes a model row by row: columns with bounds, and for each
row two bounds and coefficients.  Setting a coefficient replaces the one set
before, so the model is brought into normal form first, where a variable stands
once in a row.  `Program.ofModel?` is what the solver is given.
-/
namespace LinearProgram.InProcess

/-- The solver engines: one for continuous programs, one for those with whole values. -/
inductive Backend where
  | continuous
  | mixedInteger
deriving DecidableEq, Repr

/-- The name under which an engine is created. -/
def Backend.name : Backend → String
  | continuous => "GLOP"
  | mixedInteger => "SCIP"

/-- A variable as the solver sees it; an absent bound is infinite. -/
structure Column (R : Type) where
  var : Variable R
  lower? : Option R
  upper? : Option R
  integral : Bool
deriving DecidableEq, Repr

/-- Coefficients as they are set, one after another. -/
abbrev Settings (R : Type) := List (Variable R × R)

/-- A row as the solver sees it: bounds, of which an absent one is infinite, and
the coefficients set. -/
structure BoundedRow (R : Type) where
  lower? : Option R
  upper? : Option R
  settings : Settings R
deriving DecidableEq, Repr

/-- Everything that is handed to the solver. -/
structure Program (R : Type) where
  backend : Backend
  columns : List (Column R)
  rows : List (BoundedRow R)
  objective : Settings R
  offset : R
  maximize : Bool
deriving DecidableEq, Repr

/-- Why a model cannot be handed to the solver. -/
inductive BuildFault where
  /-- Merging factors meets an integer too large to be a real. -/
  | overflow
  /-- The engine cannot be created. -/
  | noBackend (backend : Backend)
  /-- A bound or a coefficient is an integer too large to be a real. -/
  | wideNumber
deriving DecidableEq, Repr

variable {R : Type} [Scalar R] [DecidableEq R]

/-- The coefficient of a variable: the last one set, or 0. -/
def Settings.coefficient (s : Settings R) (v : Variable R) : R :=
  (lastValue? v s).getD 0

/-- The name of a column. -/
def columnName (position : Nat) : String :=
  "v[" ++ toString position ++ "]"

/-- The name of a row. -/
def rowName (position : Nat) : String :=
  "c[" ++ toString position ++ "]"

/-- The engine for a model: continuous if every variable is. -/
def backendFor (m : Model R) : Backend :=
  if m.vars.all (!·.isIntegral) then .continuous else .mixedInteger

/-- The column of a variable. -/
def Column.of? (v : Variable R) : Option (Column R) := do
  let lower? ← v.minimum?.mapM Number.real?
  let upper? ← v.maximum?.mapM Number.real?
  return { var := v, lower? := lower?, upper? := upper?, integral := v.isIntegral }

/-- The coefficients that the terms of a function set. -/
def settingsOf? (f : LinearFunction R) : Option (Settings R) :=
  f.terms.mapM fun t => do return (t.var, ← t.factor.real?)

/-- The row of a constraint: its right-hand side bounds the terms from the side or
the sides that the comparison says. -/
def BoundedRow.of? (c : Constraint R) : Option (BoundedRow R) :=
  let r := c.rightHandSide
  (settingsOf? c.function).map fun s =>
    match c.comparison with
    | .lte => ⟨none, some r, s⟩
    | .gte => ⟨some r, none, s⟩
    | .eq => ⟨some r, some r, s⟩

/-- A normal model as a program for an engine. -/
def Program.ofNormal? (m : Model R) : Option (Program R) := do
  let columns ← m.vars.mapM Column.of?
  let rows ← m.constraints.mapM (BoundedRow.of? ·.constraint)
  let objective ← (m.objective?.map (·.function)).elim (some []) settingsOf?
  return {
    backend := backendFor m
    columns := columns
    rows := rows
    objective := objective
    offset := (m.objective?.map (·.function.constant)).getD 0
    maximize := m.maximizes }

/-- A model as a program for an engine, if the engine can be created. -/
def Program.ofModel? (available : Bool) (m : Model R) : Except BuildFault (Program R) :=
  match m.normalized? with
  | none => .error .overflow
  | some n =>
    if !available then .error (.noBackend (backendFor n))
    else match Program.ofNormal? n with
      | none => .error .wideNumber
      | some p => .ok p

end LinearProgram.InProcess
