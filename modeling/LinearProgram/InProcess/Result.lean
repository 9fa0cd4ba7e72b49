import LinearProgram.InProcess.Program
import LinearProgram.Log
import LinearProgram.Scalar.Double
import LinearProgram.Solution
/-!
# Solving in the process

The engine answers with a status code and a value for each column.  A solution
that is merely feasible counts as optimal; without one of the two no values are
taken over.
-/
namespace LinearProgram.InProcess

/-- The status of an engine's code. -/
def statusOfCode (code : Int) : Status :=
  if code = 0 || code = 1 then .optimal
  else if code = 2 then .infeasible
  else if code = 3 then .unbounded
  else if code = 6 then .unsolved
  else .undefined

/-- What an engine does with a program. -/
inductive Engine where
  /-- It cannot be created. -/
  | unavailable
  /-- It ends with a code and the values of the columns, 0 for those not listed; `none` in
  the place of a value that is no number. -/
  | ends (code : Int) (values : List (Option (Number Float)))
deriving DecidableEq, Repr

/-- Whether the engine can be created. -/
def Engine.isAvailable : Engine → Bool
  | unavailable => false
  | ends .. => true

/-- A failure that ends the solving without an answer. -/
inductive Failure where
  /-- An integer is too large to become a real. -/
  | overflow
  /-- A bound or a coefficient is an integer too large to be a real. -/
  | wideNumber
  /-- The engine gives a column something else than a number. -/
  | noNumber
deriving DecidableEq, Repr

/-- The value of a column as a real. -/
def columnValue {R : Type} [Scalar R] : Option (Number R) → Except Failure R
  | none => .error .noNumber
  | some k => k.real?.elim (.error .overflow) .ok

/-- The values of the columns under the names of their variables; of columns with one name
the last one counts. -/
def namedValues {R : Type} [Scalar R] (p : Program R) (values : List (Option (Number R))) :
    Except Failure (List (Text × R)) := do
  let bound ← p.columns.zipIdx.mapM fun c => do
    return (c.1.var.name, ← columnValue (values.getD c.2 (some (.real 0))))
  return lastValues bound

/-- The solution that the engine's answer stands for; values matter only when there is an
optimal one. -/
def extract (p : Program Float) (code : Int) (values : List (Option (Number Float))) :
    Except Failure Solution := do
  let status := statusOfCode code
  if status ≠ .optimal then return ⟨status, []⟩
  return ⟨status, ← namedValues p values⟩

/-- Solves a model: the solution, none if there is no engine, and what is logged. -/
def solve (engine : Engine) (m : Model Float) :
    Except Failure (Option Solution) × List Event :=
  match Program.ofModel? engine.isAvailable m with
  | .error .overflow => (.error .overflow, [])
  | .error .wideNumber => (.error .wideNumber, [])
  | .error (.noBackend b) => (.ok none, [.backendNotCreated b.name])
  | .ok p =>
    match engine with
    | .ends code values => ((extract p code values).map some, [])
    | .unavailable => (.ok none, [])

end LinearProgram.InProcess
