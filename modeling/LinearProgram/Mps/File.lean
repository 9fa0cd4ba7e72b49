import LinearProgram.Log
import LinearProgram.Mps.Batch
import LinearProgram.Mps.Line
/-!
# Writing the model file

The lines of a model are handed to the file in batches.  The file may refuse to be
opened, or fail at one of the writes or when it is closed; a number that cannot be written
ends the writing where its line would stand.
-/
namespace LinearProgram.Mps

/-- How a file takes what is written to it. -/
inductive Medium where
  /-- It takes everything. -/
  | sound
  /-- It cannot be opened. -/
  | closed (fault : SystemFault)
  /-- It fails at a write, counted from 0. -/
  | failing (write : Nat) (fault : SystemFault)
  /-- It takes what is written, but not all of it has arrived when it is closed. -/
  | unfinished (fault : SystemFault)
deriving DecidableEq, Repr

/-- How writing a model ended. -/
inductive Writing where
  /-- All was written, as these texts. -/
  | complete (texts : List String)
  /-- The file refused. -/
  | refused (fault : SystemFault)
  /-- A number is too large to be a double. -/
  | overflow
deriving DecidableEq, Repr

/-- The fault with which the file answers a write, if it does. -/
def Medium.faultAt? : Medium → Nat → Option SystemFault
  | sound, _ | unfinished _, _ => none
  | closed fault, _ => some fault
  | failing write fault, k => if k = write then some fault else none

/-- Writes groups of lines, each as one text, to a file that has taken `written`
already. -/
def Medium.write (medium : Medium) (written : List String) :
    List (List String) → Except SystemFault (List String)
  | [] => .ok written
  | g :: gs =>
    match medium.faultAt? written.length with
    | some fault => .error fault
    | none => medium.write (written ++ [String.join g]) gs

/-- Writes lines through a batch, which is flushed after the last one. -/
def Medium.writeLines (medium : Medium) (written : List String) (b : Batch String) :
    List (Option String) → Writing
  | [] =>
    match medium.write written b.flush.1 with
    | .ok texts => .complete texts
    | .error fault => .refused fault
  | none :: _ => .overflow
  | some l :: ls =>
    match medium.write written (b.append l).1 with
    | .ok texts => medium.writeLines texts (b.append l).2 ls
    | .error fault => .refused fault

/-- Writes the file of a model.  A file is closed whatever came before, so a fault in
closing it hides that a number was too large. -/
def writeModel (medium : Medium) (m : Model Float) : Writing :=
  match medium with
  | .closed fault | .unfinished fault => .refused fault
  | _ => medium.writeLines [] (Batch.empty batchCapacity)
      ((fileLines m).map (·.map Line.text))

/-- What is logged about a writing. -/
def Writing.events (path : Text) : Writing → List Event
  | refused fault => [.modelFileNotWritten path fault]
  | _ => []

end LinearProgram.Mps
