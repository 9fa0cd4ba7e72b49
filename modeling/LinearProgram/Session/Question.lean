import LinearProgram.Cbc.SolutionFile
import LinearProgram.Description
import LinearProgram.Mps.Entry
import LinearProgram.Session.Call
import LinearProgram.Session.Outline
import LinearProgram.Session.Report
import LinearProgram.Session.Source
/-!
# Questions

What can be asked about a model, and the answers.  A model whose parts are all what they
should be is one of the library, and the answer is what the library says about it.  About
other values an answer is given as far as their parts allow, and the first part that is
missing is the fault.
-/
namespace LinearProgram.Session

/-- A question about a model. -/
inductive Question where
  | dump
  | variables
  | functions
  | optimization
  | validate
  | variableErrors
  | factors
  | mps
  | normalize
  | backend
  /-- Asks for the normal form to take the place of the model. -/
  | useNormalized
  | build
  | evaluate (values : Source)
  | parse (text : Source)
  /-- Something else. -/
  | unknown (name : Source)

/-- An answer. -/
inductive Answer where
  | model (m : ModelView)
  /-- The unknowns, and whether they are binary. -/
  | variables (vs : List (View × Bool))
  | functions (fs : List FunctionView)
  | word (w : Text)
  | fileText (s : String)
  | reports (rs : List Report)
  | reportsByVariable (rs : List (List Report))
  | factors (fs : List (Nat × List (Row × Value)))
  | program (p : InProcess.Program Float)
  /-- The value of the objective, if there is one, and those of the constraints. -/
  | values (objective? : Option (Except Fault Value)) (constraints : List (Except Fault Value))
  | solution (s : Solution)
  /-- What keeps a solution from being one. -/
  | problems (ps : List Problem)

namespace Value

/-- Whether an unknown is binary. -/
def isBinary (x : Value) : Except Fault Bool := do
  match x.var? with
  | some v => return v.isBinary
  | none =>
    if !(← x.isIntegral) then return false
    if !(← (← x.part "minimum").same .constraint (.ofNumber (.int 0))) then return false
    (← x.part "maximum").same .constraint (.ofNumber (.int 1))

/-- The factors of each unknown that are not zero, with their rows. -/
def factors (v : Value) : Except Fault (List (Nat × List (Row × Value))) := do
  match v.model? with
  | some m =>
    return m.columnEntries.map fun g => (g.1.id, g.2.map fun e => (e.1, .ofNumber e.2))
  | none => (← v.entries).mapM fun g => do return (← g.1.identity, g.2)

/-- The engine that solves a model. -/
def engine (v : Value) : Except Fault InProcess.Backend :=
  match v.model? with
  | some m => .ok (InProcess.backendFor m)
  | none => v.backend

/-- The model that a solver in the process is handed, which is normalised there, or the fault
that is met on the way; an engine that cannot be created takes nothing. -/
def forSolver (available : Bool) (v : Value) : Making (Model Float) := do
  match v.model? with
  | some m => return m
  | none =>
    let n ← v.normalizedModel
    let _ ← n.backend
    if available then n.checkProgram
    return n.outline

/-- The program of a model. -/
def program (v : Value) : Making (InProcess.Program Float) := do
  match InProcess.Program.ofModel? true (← v.forSolver true) with
  | .ok p => return p
  | .error .overflow => throw .overflow
  | .error _ => throw .unsupported

/-! ## Evaluation -/

/-- A result or its fault, in place. -/
def attempt {α : Type} (m : Making α) : Making (Except Fault α) := do
  match m.run (← get) with
  | .ok (a, next) => do
    set next
    return .ok a
  | .error f => return .error f

/-- The values of the functions and the constraints of a model under numbers. -/
def valuesUnder (m : Model Float) (given : List (Text × Number Float)) : Answer :=
  let values (name : Text) : Number Float := (given.lookup name).getD (.real 0.0)
  let answer {α : Type} (f : α → Number Float) (a? : Option α) : Except Fault Value :=
    (a?.map fun a => ofNumber (f a)).elim (.error .overflow) .ok
  .values (m.objective?.map fun o => answer .real (o.function.value? values))
    (m.constraints.map fun c => answer .bool (c.constraint.holds? values))

/-- The values of the functions and the constraints of a model. -/
def evaluated (given : List (Text × Value)) (v : Value) : Making Answer := do
  match v.model?, given.mapM fun p => p.2.number?.map (p.1, ·) with
  | some m, some numbers => return valuesUnder m numbers
  | _, _ =>
    let objective? ← match ← v.part "objective" with
      | nothing => pure none
      | o => do
        let f ← o.part "function"
        pure (some (← attempt (f.call given)))
    let constraints ← (← v.pairs).mapM fun pair =>
      attempt ((pair.elements.headD nothing).call given)
    return .values objective? constraints

/-! ## Solutions -/

/-- The step to a value under a name that is no text. -/
def keyStep (name : Value) : Except Fault PathStep := do
  match name.integer? with
  | some (.ofNat n) => return .index n
  | _ => return .key (← name.full)

/-- The problem of a name that is no text. -/
def nameProblem? (name : Value) : Except Fault (Option Problem) := do
  match name.text? with
  | some _ => return none
  | none => return some ⟨[.key "variables", ← name.keyStep, .key "[key]"], .notText, .null⟩

/-- The solution with values under names, of which the later one stands for a name that is
given twice. -/
def solutionWith (status : Status) (bound : List (Value × Float)) : Except Fault Answer := do
  if !bound.all (·.1.isHashable) then throw .unsupported
  let named := bound.foldl (fun groups p => Groups.insert p.1 p.2 groups) []
  match ← named.filterMapM fun g => g.1.nameProblem? with
  | [] =>
    return .solution ⟨status, named.filterMap fun g => do return (← g.1.text?, ← g.2.getLast?)⟩
  | ps => return .problems ps

/-- The solution of a model that a text states. -/
def solution (text : List Char) (v : Value) : Except Fault Answer := do
  match v.model? with
  | some m => return .solution (Cbc.readSolution text m)
  | none =>
    let unknowns ← v.unknowns
    let bound ← (Cbc.bindingsOf text).filterMapM fun b =>
      (Cbc.atPosition? unknowns b.position).mapM fun x => do return (← x.part "name", b.value)
    solutionWith (Cbc.statusOf text) bound

/-- The solution of a value as a model, under the names of its own unknowns. -/
def renamed (s : Solution) (v : Value) : Except Fault Answer := do
  match v.model? with
  | some _ => return .solution s
  | none =>
    let unknowns ← v.unknowns
    let bound ← s.values.filterMapM fun p =>
      (unknowns.find? fun x => x.outlinedVariable?.any (·.name = p.1)).mapM fun x => do
        return (← x.part "name", p.2)
    solutionWith s.status bound

/-! ## Answers -/

/-- The values that are given under names. -/
def given : Value → Except Fault (List (Text × Value))
  | record _ keys vs => .ok (keys.zip vs)
  | v => .error (v.without "items")

/-- The answer to a question about a model. -/
def answer (v : Value) : Question → Making Answer
  | .dump => do return .model (← v.modelView)
  | .variables => do
    return .variables (← (← v.unknowns).mapM fun x => do return (← x.view, ← x.isBinary))
  | .functions => do return .functions (← (← v.functions).mapM (liftM ·.functionView))
  | .optimization => do return .word ((← v.direction).text?.getD [])
  | .validate => do return .reports (← v.reports)
  | .variableErrors => do return .reportsByVariable (← (← v.unknowns).mapM variableReports)
  | .factors => do return .factors (← v.factors)
  | .mps => do return .fileText (← v.fileText)
  | .normalize => do return .model (← (← v.normalizedModel).modelView)
  | .backend => do return .word (← v.engine).name
  | .useNormalized => do
    let _ ← v.normalizedModel
    return .word "ok"
  | .build => do return .program (← v.program)
  | .evaluate values => do v.evaluated (← (← values.value []).given)
  | .parse t => do
    match ← t.value [] with
    | text _ t => v.solution t.chars
    | t => throw (t.without "split")
  | .unknown name => do throw (.unknownName (← (← name.value []).full))

/-- The answer to a question, and the value that the questions after it are about. -/
def ask (v : Value) (q : Question) : Except Fault Answer × Value :=
  let next := match q with
    | .useNormalized => match v.normalizedModel.run' 0 with
      | .ok n => n
      | .error _ => v
    | _ => v
  ((v.answer q).run' 0, next)

/-- The answers to questions asked one after another. -/
def askAll (v : Value) : List Question → List (Except Fault Answer)
  | [] => []
  | q :: qs =>
    let r := v.ask q
    r.1 :: r.2.askAll qs

end Value

end LinearProgram.Session
