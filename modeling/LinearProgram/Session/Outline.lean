import LinearProgram.InProcess.Program
import LinearProgram.Mps.Line
import LinearProgram.Session.Field
/-!
# Outlines

A model whose names or labels are no texts can still be written to a file or handed to a
solver, because neither looks at them.  Its outline is the model that matters there; its
variables are named by their identities.
`Value.checkColumns` and `Value.checkProgram` say what does not get so far: a factor that
is no number, an unknown that is no variable, an objective in the place of a constraint.
-/
namespace LinearProgram.Session

namespace Value

/-- A bound as the file and the solver see it.  One that is no number is taken for the bound
of a binary variable if it compares as equal with it, and for none otherwise. -/
def outlinedBound (unit : Int) : Value → Option (Number Float)
  | nothing => none
  | number _ k => some k
  | v =>
    match v.same .constraint (ofNumber (.int unit)) with
    | .ok true => some (.int unit)
    | _ => none

/-- The variable of an unknown, named by its identity. -/
def outlinedVariable? : Value → Option (Variable Float)
  | .variable id _ d lo hi =>
    some ⟨id, toString id, d, lo.outlinedBound 0, hi.outlinedBound 1⟩
  | _ => none

/-- The factor of a term; one that is no number stands for 0 or 1. -/
def outlinedFactor : Value → Number Float
  | number _ k => k
  | v => .int (if v.isZeroFactor then 0 else 1)

/-- The term of a value. -/
def outlinedTerm? : Value → Option (Term Float)
  | term _ x factor => x.outlinedVariable?.map (⟨·, factor.outlinedFactor⟩)
  | _ => none

/-- The function of a value. -/
def outlinedFunction : Value → LinearFunction Float
  | function _ _ ts c => ⟨ts.filterMap outlinedTerm?, c.value⟩
  | _ => ⟨[], 0⟩

/-- The constraint of a pair, without a label. -/
def outlinedConstraint? (pair : Value) : Option (LabeledConstraint Float) :=
  match pair.elements with
  | constraint _ f c b :: _ => some ⟨⟨f.outlinedFunction, c, b.value⟩, none⟩
  | _ => none

/-- The objective of a value. -/
def outlinedObjective? : Value → Option (Objective Float)
  | objective _ f o => some ⟨f.outlinedFunction, o⟩
  | _ => none

/-- The outline of a model. -/
def outline : Value → Model Float
  | model _ _ o cs => ⟨[], o.outlinedObjective?, cs.elements.filterMap outlinedConstraint?⟩
  | _ => ⟨[], none, []⟩

/-- A value as a model: itself, or its outline. -/
def toModel (v : Value) : Model Float :=
  v.model?.getD v.outline

/-! ## What can be written -/

/-- Entries with those of the function of a constraint or an objective, which stands in a
row. -/
def insertRow (row : Row) (groups : Groups (Row × Value)) (v : Value) :
    Except Fault (Groups (Row × Value)) := do
  (← v.part "function").termList.foldlM (Groups.insertTerm (row, ·)) groups

/-- The factors of each unknown that are not zero, with their rows: those of the constraints,
then those of the objective. -/
def entries (v : Value) : Except Fault (Groups (Row × Value)) := do
  let groups ← (← v.pairs).zipIdx.foldlM
    (fun groups p => insertRow (.constraint p.2) groups (p.1.elements.headD nothing)) []
  match ← v.part "objective" with
  | nothing => return groups
  | o => insertRow .objective groups o

/-- The fault of a factor that cannot be written as a number, if it has one. -/
def checkFactor : Value → Except Fault Unit
  | number _ k => if (Mps.numberText? k).isSome then return () else throw .overflow
  | _ => throw .unsupported

/-- Whether the column of an unknown can be written with its entries. -/
def checkColumn (x : Value) (entries : List (Row × Value)) : Except Fault Unit := do
  if entries.isEmpty then return
  let _ ← x.part "domain"
  entries.forM (·.2.checkFactor)

/-- The first fault that is met when the columns of a model are written. -/
def checkColumns (v : Value) : Except Fault Unit := do
  let unknowns ← v.unknowns
  let _ ← v.direction
  (← v.pairs).forM fun pair => do
    let _ ← (pair.elements.headD nothing).part "comparison"
  let groups ← v.entries
  unknowns.forM fun x => x.checkColumn (groups.membersOf x)
  unknowns.forM fun x => do
    let _ ← x.part "domain"

/-- A model that cannot be written, because a number in it is too large. -/
def unwritable : Model Float :=
  let x : Variable Float := .declare 0 [] .real none none
  ⟨[], some ⟨⟨[⟨x, .int (Int.ofNat (Nat.pow 10 400))⟩], 0⟩, .minimize⟩, []⟩

/-- The model that is written for a value, and the fault that a number too large to be
written stands for. -/
def toWrite (v : Value) : Model Float × Fault :=
  match v.model?, v.checkColumns with
  | some m, _ => (m, .overflow)
  | none, .ok _ => (v.outline, .overflow)
  | none, .error f => (unwritable, f)

/-- The text of the model file. -/
def fileText (v : Value) : Except Fault String := do
  let (m, f) := v.toWrite
  match Mps.text? m with
  | some t => return t
  | none => throw f

/-! ## What can be solved -/

/-- Whether an unknown takes whole values only. -/
def isIntegral (x : Value) : Except Fault Bool := do
  match ← x.part "domain" with
  | word (.domain .real) => return false
  | _ => return true

/-- The engine for a model: continuous if every unknown is. -/
def backend (v : Value) : Except Fault InProcess.Backend := do
  return if ← (← v.unknowns).anyM isIntegral then .mixedInteger else .continuous

/-- The fault of a value that is no bound or coefficient of a solver, if it has one. -/
def checkCoefficient : Value → Except Fault Unit
  | number _ k => if k.real?.isSome then return () else throw .unsupported
  | _ => throw .unsupported

/-- The fault of a value that is no bound of a solver, if it has one. -/
def checkBound : Value → Except Fault Unit
  | nothing => return ()
  | v => v.checkCoefficient

/-- The first fault that is met when a normal model is handed to an engine. -/
def checkProgram (v : Value) : Except Fault Unit := do
  (← v.unknowns).forM fun x => do
    let lo ← x.part "minimum"
    let hi ← x.part "maximum"
    lo.checkBound
    hi.checkBound
  (← v.functions).forM fun f => f.termList.forM fun t => do
    (← t.part "factor").checkCoefficient

end Value

end LinearProgram.Session
