import LinearProgram.Log
import LinearProgram.Model
import LinearProgram.Mps.Name
import LinearProgram.Scalar.Double
import LinearProgram.Solution
import LinearProgram.Text.Numeral
import LinearProgram.Text.Utf8
/-!
# The solution file

The first line starts with a word for the status.  Every line between the first
and the last may bind a column to a value: an index, a column name and a value,
after `**` or not.  The index is the solver's own and locates nothing; the variable
is the one at the position that the column name gives.  All other lines are
skipped.
-/
namespace LinearProgram.Cbc

open LinearProgram.Text (words lines integer? real?)

/-- The words that start a solution, with the status each stands for. -/
def statusWords : List (String × Status) :=
  [("Optimal", .optimal), ("Infeasible", .infeasible), ("Integer", .infeasible),
    ("Unbounded", .unbounded), ("Stopped", .unsolved)]

/-- The status of the first line. -/
def readStatus (line : List Char) : Status :=
  match words line with
  | [] => .undefined
  | w :: _ => ((statusWords.find? (·.1.toList = w)).map (·.2)).getD .undefined

/-- A column position with the value bound to it. -/
structure Binding where
  position : Int
  value : Float
deriving DecidableEq, Repr

/-- The words of a line after the mark `**`, if it has one. -/
def unmarked : List (List Char) → List (List Char)
  | ['*', '*'] :: ws => ws
  | ws => ws

/-- The binding that a line states, if it states one. -/
def readBinding (line : List Char) : Option Binding :=
  match unmarked (words line) with
  | index :: (letter :: digits) :: value :: _ =>
    if letter = Mps.columnLetter then do
      let _ ← integer? index
      return ⟨← integer? digits, ← real? value⟩
    else none
  | _ => none

/-- The element at a position, if the list has one there. -/
def atPosition? {α : Type} (xs : List α) (position : Int) : Option α :=
  if position < 0 then none else xs[position.toNat]?

/-- The name of the bound variable with its value, if the position is a column. -/
def Binding.resolve (columns : List (Variable Float)) (b : Binding) : Option (Text × Float) :=
  (atPosition? columns b.position).map fun v => (v.name, b.value)

/-- The lines between the first and the last. -/
def bodyLines (ls : List (List Char)) : List (List Char) :=
  ls.tail.dropLast

/-- The status that a text states. -/
def statusOf (text : List Char) : Status :=
  readStatus ((lines text).headD [])

/-- The bindings that a text states. -/
def bindingsOf (text : List Char) : List Binding :=
  (bodyLines (lines text)).filterMap readBinding

/-- The solution of a model that a text states; of two values for a name the later
one stands. -/
def readSolution (text : List Char) (m : Model Float) : Solution :=
  let columns := m.vars
  { status := statusOf text
    values := lastValues ((bindingsOf text).filterMap (·.resolve columns)) }

/-! ## Files -/

/-- What the solver left in the place of the solution file. -/
inductive SolutionFile where
  /-- A file that holds these bytes. -/
  | bytes (bs : List UInt8)
  /-- Nothing that can be read. -/
  | unreadable (fault : SystemFault)
deriving DecidableEq, Repr

/-- The text of a file with its line ends unified, or why there is none. -/
def SolutionFile.text : SolutionFile → Except SystemFault (List Char)
  | bytes bs =>
    match Text.Utf8.decode? bs with
    | some cs => .ok (Text.unifyLineEnds cs)
    | none => .error .notUtf8
  | unreadable fault => .error fault

/-- Reads the solution of a model from a file, and what is logged about it. -/
def SolutionFile.read (path : Text) (file : SolutionFile) (m : Model Float) :
    Option Solution × List Event :=
  match file.text with
  | .ok cs => (some (readSolution cs m), [])
  | .error fault => (none, [.solutionFileNotRead path fault])

end LinearProgram.Cbc
