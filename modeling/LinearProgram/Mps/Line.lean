import LinearProgram.Mps.Entry
import LinearProgram.Mps.Name
import LinearProgram.Mps.Number
/-!
# The lines of the model file

The model file has a comment with the direction, the sections ROWS, COLUMNS, RHS
and BOUNDS, and an end line.  A column that takes whole values stands between two
marker lines.  `fileLines` lists the lines in order, with `none` in the place
of a number too large to be written; `Line.text` is the text of a line.
-/
namespace LinearProgram.Mps

/-- A line of the model file. -/
inductive Line where
  | sense (o : Optimization)
  | name
  | rows
  | objectiveRow
  | constraintRow (c : Comparison) (position : Nat)
  | columns
  | marker (opens : Bool)
  | entry (column : Nat) (row : Row) (number : List Char)
  | rhs
  | rightHandSide (position : Nat) (number : List Char)
  | bounds
  | binary (column : Nat)
  | endData
deriving DecidableEq, Repr

/-- The word of the direction in the comment line. -/
def senseWord : Optimization → String
  | .minimize => "Minimize"
  | .maximize => "Maximize"

/-- The letter of a comparison in the ROWS section. -/
def rowLetter : Comparison → String
  | .lte => "L"
  | .eq => "E"
  | .gte => "G"

/-- The name of a row in the COLUMNS section. -/
def entryRowName : Row → String
  | .constraint k => String.ofList (rowName k)
  | .objective => "OBJ     "

/-- The text of a line, its line feed included. -/
def Line.text : Line → String
  | sense o => "*SENSE:" ++ senseWord o ++ "\n"
  | name => "NAME          MODEL\n"
  | rows => "ROWS\n"
  | objectiveRow => " N  OBJ\n"
  | constraintRow c k => " " ++ rowLetter c ++ "  " ++ String.ofList (rowName k) ++ "\n"
  | columns => "COLUMNS\n"
  | marker true => "    MARK      'MARKER'                 'INTORG'\n"
  | marker false => "    MARK      'MARKER'                 'INTEND'\n"
  | entry column row number =>
    "    " ++ String.ofList (columnName column) ++ "  " ++ entryRowName row ++ "   " ++
      String.ofList number ++ "\n"
  | rhs => "RHS\n"
  | rightHandSide k number =>
    "    RHS       " ++ String.ofList (rowName k) ++ "   " ++ String.ofList number ++ "\n"
  | bounds => "BOUNDS\n"
  | binary column => " BV BND       " ++ String.ofList (columnName column) ++ "\n"
  | endData => "ENDATA\n"

variable (m : Model Float)

/-- The ROWS section: the objective, if there is one, and the constraints. -/
def rowLines : List Line :=
  .rows :: m.objective?.toList.map (fun _ => .objectiveRow) ++
    m.constraints.zipIdx.map fun p => .constraintRow p.1.constraint.comparison p.2

/-- The lines of one column: none without entries, and between markers when it
takes whole values. -/
def columnBlock (column : Nat) (v : Variable Float) (entries : List (Row × Number Float)) :
    List (Option Line) :=
  if entries.isEmpty then []
  else
    let block := entries.map fun e => (numberText? e.2).map (.entry column e.1)
    if v.isIntegral then some (.marker true) :: block ++ [some (.marker false)] else block

/-- The COLUMNS section, a block for each variable in order. -/
def columnLines : List (Option Line) :=
  some .columns :: m.vars.zipIdx.flatMap fun p => columnBlock p.2 p.1 (m.entriesOf p.1)

/-- The RHS section: one number for each constraint, the constant of its function
moved to the right. -/
def rhsLines : List (Option Line) :=
  some .rhs :: m.constraints.zipIdx.map fun p =>
    (numberText? (.real p.1.constraint.rightHandSide)).map (.rightHandSide p.2)

/-- The BOUNDS section: the binary variables that have a column. -/
def boundLines : List Line :=
  .bounds :: (m.vars.zipIdx.filter fun p =>
    p.1.isBinary && !(m.entriesOf p.1).isEmpty).map fun p => .binary p.2

/-- All lines of the model file in order; `none` stands for a line whose number
cannot be written. -/
def fileLines : List (Option Line) :=
  [.sense m.optimization, .name].map some ++ (rowLines m).map some ++ columnLines m ++
    rhsLines m ++ (boundLines m).map some ++ [some .endData]

/-- The lines of the model file, if every number can be written. -/
def lines? : Option (List Line) :=
  (fileLines m).mapM id

/-- The text of the model file, if every number can be written. -/
def text? : Option String :=
  (lines? m).map fun ls => String.join (ls.map Line.text)

end LinearProgram.Mps
