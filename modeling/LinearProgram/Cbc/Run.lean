import LinearProgram.Cbc.SolutionFile
import LinearProgram.Mps.File
import LinearProgram.Text.Blank
/-!
# Running the solver CBC

A run has its own temporary folder.  The model file is written there, the solver is
launched on it and leaves its solution beside it, the solution is read, and the
folder is removed whatever happened before.  What the system and the solver do at
each stage is given by `Surroundings`.

A run is a program of steps that keep a `Journal`: what was logged, which files were
opened for writing, which solver was started, and what became of the folder.  A step may
end in a `Failure`, which passes through all that follow except the removal of the folder;
what the journal holds stays.  `solve` says what comes of a run: the answer and the journal.
-/
namespace LinearProgram.Cbc

/-- The arguments of the solver.  The direction is passed here because the solver
ignores the comment in the file. -/
def arguments (modelPath solutionPath : Text) (maximize : Bool) : List Text :=
  [modelPath, if maximize then "max" else "min", "timeMode", "elapsed", "branch",
    "printingOptions", "normal", "solution", solutionPath]

/-- The name of the model file in its folder. -/
def modelFileName : Text := "model.mps"

/-- The name of the solution file in its folder. -/
def solutionFileName : Text := "model.sol"

/-- The path of a file in a folder. -/
def pathIn (folder file : Text) : Text :=
  folder ++ "/" ++ file

/-- What launching the solver comes to. -/
inductive Launch where
  /-- The solver cannot be started. -/
  | refused (fault : SystemFault)
  /-- It ran, and ended with a status and these bytes of complaint. -/
  | ended (status : Int) (complaint : List UInt8)
deriving DecidableEq, Repr

/-- What the reading of the solution comes to, beyond the file itself. -/
inductive Reading where
  /-- The file is read. -/
  | file (f : SolutionFile)
  /-- Reading breaks off with a failure that is not the file's. -/
  | broken (cause : String)
deriving DecidableEq, Repr

/-- Everything around one run that the program does not decide. -/
structure Surroundings where
  /-- The temporary folder, or why there is none. -/
  folder : Except SystemFault Text
  /-- How the model file takes what is written. -/
  medium : Mps.Medium
  /-- What the launch comes to. -/
  launch : Launch
  /-- What the solver left to be read. -/
  reading : Reading
  /-- Why the folder cannot be removed, if it cannot. -/
  removal : Option SystemFault

/-- A failure that ends a run without an answer. -/
inductive Failure where
  /-- A number of the model is too large to be written. -/
  | overflow
  /-- The command holds the character NUL. -/
  | nulInCommand
  /-- The command holds surrogates that stand for nothing. -/
  | unencodable (r : Text.Utf8.SurrogateRun)
  /-- Reading broke off. -/
  | broken (cause : String)
deriving DecidableEq, Repr

/-- The words for a failure. -/
def Failure.message : Failure → String
  | overflow => "int too large to convert to float"
  | nulInCommand => "embedded null byte"
  | unencodable r => r.message
  | broken cause => cause

/-- What became of the temporary folder. -/
inductive FolderFate where
  | neverCreated
  | removed
  | leftBehind
deriving DecidableEq, Repr

/-- A started solver: its arguments and the model file that it found. -/
structure Started where
  arguments : List Text
  modelText : String
deriving DecidableEq, Repr

/-- The text of the solver's complaint. -/
def complaintText (bs : List UInt8) : Text :=
  Text.ofChars (Text.trim Text.isBlank (Text.Utf8.decodeLossy bs))

/-- Why a command cannot be handed to the system, if it cannot. -/
def commandFailure? (program : Text) : Option Failure :=
  match Text.Utf8.surrogateRun? Text.Utf8.standsForByte 0 program with
  | some r => some (.unencodable r)
  | none => if program.contains (.char '\x00') then some .nulInCommand else none

/-! ## The steps of a run -/

/-- What a run has done so far. -/
structure Journal where
  /-- What was logged, in order. -/
  events : List Event
  /-- The paths of the files that were to be opened for writing, in order. -/
  opened : List Text
  /-- The solver as it was started, if it was. -/
  started? : Option Started
  /-- How often removal of the folder was attempted. -/
  removals : Nat
  folder : FolderFate

/-- Nothing has been done. -/
def Journal.empty : Journal :=
  ⟨[], [], none, 0, .neverCreated⟩

/-- A step of a run.  It may end in a failure; what it has done by then stays done. -/
abbrev Step := ExceptT Failure (StateM Journal)

/-- Logs events. -/
def record (es : List Event) : Step Unit :=
  modify fun j => { j with events := j.events ++ es }

/-- Creates the temporary folder, if the system lets it. -/
def makeFolder (folder : Except SystemFault Text) : Step (Option Text) :=
  match folder with
  | .error fault => do
    record [.folderNotCreated fault]
    return none
  | .ok folder => do
    modify fun j => { j with folder := .leftBehind }
    return some folder

/-- Writes the model file; answers with its text, or with none if the file refuses. -/
def writeFile (medium : Mps.Medium) (path : Text) (m : Model Float) : Step (Option String) := do
  modify fun j => { j with opened := j.opened ++ [path] }
  let writing := Mps.writeModel medium m
  record (writing.events path)
  match writing with
  | .complete texts => return some (String.join texts)
  | .refused _ => return none
  | .overflow => throw .overflow

/-- Launches the solver and waits for its end; answers with whether it ended well. -/
def launchSolver (launch : Launch) (program : Text) (args : List Text) (modelText : String) :
    Step Bool := do
  record [.running (program :: args)]
  match commandFailure? program with
  | some failure => throw failure
  | none =>
    match launch with
    | .refused fault =>
      record [.notLaunched program fault]
      return false
    | .ended status complaint =>
      modify fun j => { j with started? := some ⟨args, modelText⟩ }
      if status ≠ 0 then
        record [.exited status (complaintText complaint)]
        return false
      else return true

/-- Reads the answer of a solver that ended well. -/
def readAnswer (reading : Reading) (path : Text) (m : Model Float) : Step (Option Solution) :=
  match reading with
  | .broken cause => throw (.broken cause)
  | .file f => do
    let r := f.read path m
    record r.2
    return r.1

/-- Removes the temporary folder; that this fails is logged and no more. -/
def removeFolder (removal : Option SystemFault) (folder : Text) : Step Unit := do
  modify fun j => { j with removals := j.removals + 1 }
  match removal with
  | some fault => record [.folderNotRemoved folder fault]
  | none => modify fun j => { j with folder := .removed }

/-- Has the solver solve the model whose file is written, and reads its answer. -/
def askSolver (s : Surroundings) (program folder : Text) (m : Model Float) (modelText : String) :
    Step (Option Solution) := do
  let solutionPath := pathIn folder solutionFileName
  let args := arguments (pathIn folder modelFileName) solutionPath m.maximizes
  if ← launchSolver s.launch program args modelText then readAnswer s.reading solutionPath m
  else return none

/-- The work inside the folder. -/
def workIn (s : Surroundings) (program folder : Text) (m : Model Float) :
    Step (Option Solution) := do
  match ← writeFile s.medium (pathIn folder modelFileName) m with
  | none => return none
  | some modelText => askSolver s program folder m modelText

/-- All steps of a run. -/
def steps (s : Surroundings) (program : Text) (m : Model Float) : Step (Option Solution) := do
  match ← makeFolder s.folder with
  | none => return none
  | some folder =>
    try workIn s program folder m
    finally removeFolder s.removal folder

/-- What came of a run. -/
structure Outcome extends Journal where
  /-- The solution, none if the run failed in a way it reports, or a failure. -/
  answer : Except Failure (Option Solution)

/-- Runs the solver on a model. -/
def solve (s : Surroundings) (program : Text) (m : Model Float) : Outcome :=
  let (answer, journal) := StateT.run (steps s program m).run Journal.empty
  { journal with answer := answer }

end LinearProgram.Cbc
