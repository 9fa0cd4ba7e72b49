import LinearProgram.Constraint
import LinearProgram.Schema
import LinearProgram.Solution
/-!
# Descriptions

What users send and receive: models described by names and numbers, requests to
solve them, results, and reports on validity.  Every type comes with its schema.
-/
namespace LinearProgram.Description

/-- A declared variable. -/
structure Variable where
  name : Text
  domain : Domain
  minimum? : Option Float
  maximum? : Option Float
deriving DecidableEq, Repr

/-- A factor with the name of a variable. -/
structure Term where
  variableName : Text
  factor : Float
deriving DecidableEq, Repr

/-- A linear function. -/
structure Function where
  terms : List Term
  constant : Float
deriving DecidableEq, Repr

/-- An objective. -/
structure Objective where
  function : Function
  optimization : Optimization
deriving DecidableEq, Repr

/-- A constraint; the name may be empty. -/
structure Constraint where
  function : Function
  comparison : Comparison
  constant : Float
  name : Text
deriving DecidableEq, Repr

/-- A model: declared variables, and functions that refer to them by name. -/
structure Model where
  name : Text
  declarations : List Variable
  objective? : Option Objective
  constraints : List Constraint
deriving DecidableEq, Repr

/-- The solvers that can be asked for. -/
inductive SolverKind where
  | cbc
  | inProcess
deriving DecidableEq, Repr

/-- The word for a solver. -/
def SolverKind.name : SolverKind → String
  | cbc => "cbc"
  | inProcess => "ortools"

/-- The options of a request. -/
structure Options where
  solver : SolverKind
deriving DecidableEq, Repr

/-- A request to solve a model. -/
structure Request where
  model : Model
  options : Options
deriving DecidableEq, Repr

/-- One violation in a report. -/
structure Issue where
  kind : Text
  subject : Text
  message : Text

/-- A report on the validity of a model. -/
structure Report where
  valid : Bool
  issues : List Issue

/-- How deep the JSON text of a description may be nested. -/
def deepest : Nat := 992

/-! ## Schemas -/

/-- The schema of the record without fields. -/
def emptySchema : Schema Unit :=
  .record "StrictBaseModel" .done id id (fun _ => rfl)

/-- The schema of domains. -/
def domainSchema : Schema Domain :=
  .choice [.real, .integer, .binary] Domain.name

/-- The schema of comparisons. -/
def comparisonSchema : Schema Comparison :=
  .choice [.lte, .eq, .gte] Comparison.name

/-- The schema of directions. -/
def optimizationSchema : Schema Optimization :=
  .choice [.minimize, .maximize] Optimization.name

/-- The schema of statuses. -/
def statusSchema : Schema Status :=
  .choice [.optimal, .infeasible, .unbounded, .unsolved, .undefined] Status.name

/-- The schema of solvers. -/
def solverSchema : Schema SolverKind :=
  .choice [.cbc, .inProcess] SolverKind.name

/-- The schema of declared variables. -/
def variableSchema : Schema Variable :=
  .record "VariableSpec"
    (.field "name" (.text 0) none <|
      .field "domain" domainSchema (some .real) <|
      .field "minimum" (.optional .number) (some none) <|
      .field "maximum" (.optional .number) (some none) .done)
    (fun (name, domain, lo, hi, _) => ⟨name, domain, lo, hi⟩)
    (fun v => (v.name, v.domain, v.minimum?, v.maximum?, ()))
    (fun _ => rfl)

/-- The schema of terms. -/
def termSchema : Schema Term :=
  .record "TermSpec"
    (.field "variable" (.text 0) none <| .field "factor" .number (some 1.0) .done)
    (fun (name, factor, _) => ⟨name, factor⟩)
    (fun t => (t.variableName, t.factor, ()))
    (fun _ => rfl)

/-- The schema of functions. -/
def functionSchema : Schema Function :=
  .record "FunctionSpec"
    (.field "terms" (.list termSchema) (some []) <|
      .field "constant" .number (some 0.0) .done)
    (fun (terms, constant, _) => ⟨terms, constant⟩)
    (fun f => (f.terms, f.constant, ()))
    (fun _ => rfl)

/-- The schema of objectives. -/
def objectiveSchema : Schema Objective :=
  .record "ObjectiveSpec"
    (.field "function" functionSchema none <|
      .field "optimization" optimizationSchema (some .minimize) .done)
    (fun (function, optimization, _) => ⟨function, optimization⟩)
    (fun o => (o.function, o.optimization, ()))
    (fun _ => rfl)

/-- The schema of constraints. -/
def constraintSchema : Schema Constraint :=
  .record "ConstraintSpec"
    (.field "function" functionSchema none <|
      .field "comparison" comparisonSchema (some .eq) <|
      .field "constant" .number (some 0.0) <|
      .field "name" (.text 0) (some "") .done)
    (fun (function, comparison, constant, name, _) => ⟨function, comparison, constant, name⟩)
    (fun c => (c.function, c.comparison, c.constant, c.name, ()))
    (fun _ => rfl)

/-- The schema of models. -/
def modelSchema : Schema Model :=
  .record "ModelSpec"
    (.field "name" (.text 1) none <|
      .field "variables" (.list variableSchema) (some []) <|
      .field "objective" (.optional objectiveSchema) (some none) <|
      .field "constraints" (.list constraintSchema) (some []) .done)
    (fun (name, declarations, objective, constraints, _) =>
      ⟨name, declarations, objective, constraints⟩)
    (fun m => (m.name, m.declarations, m.objective?, m.constraints, ()))
    (fun _ => rfl)

/-- The schema of options. -/
def optionsSchema : Schema Options :=
  .record "SolveOptions"
    (.field "solver" solverSchema (some .cbc) .done)
    (fun (solver, _) => ⟨solver⟩)
    (fun o => (o.solver, ()))
    (fun _ => rfl)

/-- The schema of requests. -/
def requestSchema : Schema Request :=
  .record "SolveRequest"
    (.field "model" modelSchema none <|
      .field "options" optionsSchema (some ⟨.cbc⟩) .done)
    (fun (model, options, _) => ⟨model, options⟩)
    (fun r => (r.model, r.options, ()))
    (fun _ => rfl)

/-- The schema of solutions. -/
def solutionSchema : Schema Solution :=
  .record "SolverResult"
    (.field "status" statusSchema none <|
      .field "variables" (.table .number) (some []) .done)
    (fun (status, values, _) => ⟨status, values⟩)
    (fun s => (s.status, s.values, ()))
    (fun _ => rfl)

/-- The schema of issues. -/
def issueSchema : Schema Issue :=
  .record "ValidationIssue"
    (.field "kind" (.text 0) none <|
      .field "subject" (.text 0) none <|
      .field "message" (.text 0) none .done)
    (fun (kind, subject, message, _) => ⟨kind, subject, message⟩)
    (fun i => (i.kind, i.subject, i.message, ()))
    (fun _ => rfl)

/-- The schema of reports. -/
def reportSchema : Schema Report :=
  .record "ValidationReport"
    (.field "valid" .truth none <|
      .field "errors" (.list issueSchema) (some []) .done)
    (fun (valid, issues, _) => ⟨valid, issues⟩)
    (fun r => (r.valid, r.issues, ()))
    (fun _ => rfl)

end LinearProgram.Description
