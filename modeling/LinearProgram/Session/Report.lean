import LinearProgram.Session.Field
import LinearProgram.Session.View
import LinearProgram.Validation
/-!
# Reports

A report tells that a model breaks a rule, and which element of it does.  What the rules
are is said by `Model.violations`, for a model whose names are texts, whose labels are texts
or absent, and whose bounds are numbers.  Other names, labels and bounds are judged by what
can be done with them: a name is searched for reserved characters, two bounds are put in
order, and names and labels are told apart like the members of a set.
-/
namespace LinearProgram.Session

/-- The element of a model that breaks a rule. -/
inductive Subject where
  | model
  | variable (id : Nat)
  /-- A constraint, by the first position that holds it. -/
  | constraint (position : Nat)
deriving DecidableEq, Repr

/-- A rule that is broken. -/
structure Report where
  rule : Rule
  subject : Subject
  /-- The label that is used twice, nothing for other rules. -/
  label : Value
  message : Text

/-- A broken rule with the values that its sentence is about. -/
structure Breach where
  rule : Rule
  subject : Subject
  label : Value
  /-- The name of the element. -/
  name : Value
  /-- The domain and the bounds of a variable. -/
  range? : Option (Domain × Value × Value)

/-- The report of a breach; its sentence shows the values. -/
def Breach.report (b : Breach) : Except Fault Report := do
  let name ← if b.rule = .emptyVariableName then pure [] else b.name.display
  let range ← if b.rule ≠ .invalidVariableBounds then pure [] else match b.range? with
    | some (d, lo, hi) => do pure (Rule.rangeText d (← lo.display) (← hi.display))
    | none => pure []
  return ⟨b.rule, b.subject, b.label, b.rule.sentence name range⟩

namespace Value

/-! ## Variables -/

/-- Whether one of the items of a name is a reserved character. -/
def anyReserved : List Value → Making Bool
  | [] => return false
  | v :: vs => do
    if !v.isHashable then throw .unsupported
    match v.text? with
    | some [p] => if p.isIn reservedCharacters.contains then return true else anyReserved vs
    | _ => anyReserved vs

/-- The rule about names that a name breaks. -/
def nameRule? (name : Value) : Making (Option Rule) := do
  if !name.isTruthy then return some .emptyVariableName
  if ← anyReserved (← name.items) then return some .invalidVariableName
  return none

/-- Whether two bounds are not in order. -/
def crosses (lo hi : Value) : Making Bool := do
  match lo, hi with
  | nothing, _ | _, nothing => return false
  | lo, hi => return (← lo.order .greater hi).isTrue

/-- Whether the bounds are impossible, or not those of the binary domain. -/
def boundsFail (d : Domain) (lo hi : Value) : Making Bool := do
  if ← lo.crosses hi then return true
  if d ≠ .binary then return false
  if (← lo.differs (.ofNumber (.int 0))).isTrue then return true
  return (← hi.differs (.ofNumber (.int 1))).isTrue

/-- The rules that a variable breaks alone. -/
def variableBreaches (v : Value) : Making (List Breach) := do
  let name ← v.part "name"
  let nameRule? ← name.nameRule?
  match v with
  | .variable id _ d lo hi =>
    let boundsRule? := if ← boundsFail d lo hi then some Rule.invalidVariableBounds else none
    return (nameRule?.toList ++ boundsRule?.toList).map fun rule =>
      ⟨rule, .variable id, nothing, name, some (d, lo, hi)⟩
  | v => throw (v.without "minimum")

/-- Whether a value is among those met before, as the member of a set. -/
def isTaken (taken : List Value) (v : Value) : Making Bool :=
  if v.isHashable then return taken.any v.coincides else throw .unsupported

/-- The rules that variables break, in order; `taken` holds the names met before. -/
def unknownBreaches (taken : List Value) : List Value → Making (List Breach)
  | [] => return []
  | v :: vs => do
    let alone ← v.variableBreaches
    let name ← v.part "name"
    if !name.isTruthy then return alone ++ (← unknownBreaches taken vs)
    else if ← name.isTaken taken then
      let id ← v.identity
      let shared : Breach := ⟨.duplicateVariableName, .variable id, nothing, name, none⟩
      return alone ++ shared :: (← unknownBreaches taken vs)
    else return alone ++ (← unknownBreaches (name :: taken) vs)

/-! ## Constraints -/

/-- The first position of a constraint among the pairs of a model. -/
def firstPosition (pairs : List Value) (c : Value) : Nat :=
  pairs.findIdx fun pair => pair.elements.head?.any c.identical

/-- The rules that labels break, in order; `taken` holds the labels met before. -/
def labelBreaches (pairs taken : List Value) : List Value → Making (List Breach)
  | [] => return []
  | pair :: rest => do
    match pair.elements with
    | [c, label] =>
      if !label.isTruthy then labelBreaches pairs taken rest
      else if ← label.isTaken taken then
        let shared : Breach :=
          ⟨.duplicateConstraintName, .constraint (firstPosition pairs c), label, label, none⟩
        return shared :: (← labelBreaches pairs taken rest)
      else labelBreaches pairs (label :: taken) rest
    | _ => labelBreaches pairs taken rest

/-! ## Models -/

/-- Every rule that a model breaks: those about its name, its variables and its labels. -/
def breaches (v : Value) : Making (List Breach) := do
  let name ← v.part "name"
  let spaced ← (text .shared " ").isIn name
  let own : List Breach := if spaced then [⟨.invalidModelName, .model, nothing, name, none⟩] else []
  let unknowns ← v.unknowns
  let unknownBreaches ← unknownBreaches [] unknowns
  let pairs ← v.pairs
  return own ++ unknownBreaches ++ (← labelBreaches pairs [] pairs)

end Value

/-- The report of a violation of a model; `first` is the first position of the constraint at a
position. -/
def Report.ofViolation (first : Nat → Nat) (v : Violation Float) : Report :=
  { rule := v.rule
    subject := match v with
      | .duplicateConstraintName k _ => .constraint (first k)
      | v => v.holder?.elim .model fun x => .variable x.id
    label := v.label?.elim .nothing (.text .shared)
    message := v.message }

namespace Value

/-- The reports about a model. -/
def reports (v : Value) : Making (List Report) := do
  match v.model? with
  | some m =>
    let pairs ← v.pairs
    let first (k : Nat) : Nat :=
      (pairs[k]?.bind (·.elements.head?)).elim k (firstPosition pairs)
    return m.violations.map (.ofViolation first)
  | none => (← v.breaches).mapM (liftM ·.report)

/-- The reports about a variable taken alone. -/
def variableReports (v : Value) : Making (List Report) :=
  match v.var? with
  | some x => return x.violations.map (.ofViolation id)
  | none => do (← v.variableBreaches).mapM (liftM ·.report)

end Value

end LinearProgram.Session
