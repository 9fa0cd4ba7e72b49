import LinearProgram.Session.Equality
import LinearProgram.Session.Operator
/-!
# Normal forms of objects

A function that is in normal form already stays the same object.  Another one is
made anew, with new terms; it keeps the constant, and a variable that had one factor
keeps that factor.  A model is made anew in any case, with new constraints and a new
objective.

What the normal form is, is said by `LinearFunction.normalForm?`.  A function with a
factor that is no number has one too, as long as no such factor has to be added to
another: `FunctionObject.mergedByHand`.
-/
namespace LinearProgram.Session

/-- Whether a factor counts as zero.  An expression does, because it makes a constraint
when it is compared with zero. -/
def Value.isZeroFactor : Value → Bool
  | .number _ k => k.isZero
  | v => v.isExpression

/-! ## Functions -/

/-- The factors that are not zero of the terms of a variable. -/
def FunctionObject.factorsOf (f : FunctionObject) (v : Variable Float) : List Value :=
  f.terms.filterMap fun t =>
    match t with
    | .term _ (.variable id _ _ _ _) factor =>
      if id = v.id && !factor.isZeroFactor then some factor else none
    | _ => none

/-- The unknown of the terms of a variable. -/
def FunctionObject.unknownOf (f : FunctionObject) (v : Variable Float) : Value :=
  (f.terms.findSome? fun t =>
    match t with
    | .term _ (.variable id name d lo hi) _ =>
      if id = v.id then some (.variable id name d lo hi) else none
    | _ => none).getD (.ofVariable v)

/-- A merged term: a lone factor stays the same object, a sum is a new one. -/
def FunctionObject.mergedTerm (f : FunctionObject) (t : Term Float) : Making Value := do
  let x := f.unknownOf t.var
  match f.factorsOf t.var with
  | [factor] => return .term (← fresh) x factor
  | _ => return .term (← fresh) x (← Value.newNumber t.factor)

/-- Unknowns, each with what is collected for it. -/
abbrev Groups (α : Type) := List (Value × List α)

namespace Groups

variable {α : Type}

/-- Groups with one more member for an unknown. -/
def insert (x : Value) (a : α) : Groups α → Groups α
  | [] => [(x, [a])]
  | g :: gs => if g.1.coincides x then (g.1, g.2 ++ [a]) :: gs else g :: insert x a gs

/-- Groups with one more term, unless its factor is zero; `member` is what is collected of
a factor. -/
def insertTerm (member : Value → α) (groups : Groups α) (t : Value) :
    Except Fault (Groups α) := do
  let factor ← t.part "factor"
  if factor.isZeroFactor then return groups
  let x ← t.part "variable"
  if x.isHashable then return groups.insert x (member factor) else throw .unsupported

/-- What is collected for an unknown. -/
def membersOf (x : Value) (groups : Groups α) : List α :=
  ((groups.find? fun g => g.1.coincides x).map (·.2)).getD []

end Groups

/-- The term of a group, unless its factors add up to zero. -/
def mergedGroup (g : Value × List Value) : Making (Option Value) := do
  let factor ← match g.2 with
    | [k] => pure k
    | ks => ks.foldlM Value.add (.number .shared (.int 0))
  if factor.isZeroFactor then return none
  return some (.term (← fresh) g.1 factor)

/-- The normal form of a function with terms of any kind. -/
def FunctionObject.mergedByHand (f : FunctionObject) : Making FunctionObject := do
  match f.terms with
  | [] => return f
  | [t] =>
    if (← t.part "factor").isZeroFactor then newFunctionOf [] none f.constant else return f
  | ts =>
    let groups ← (ts.foldlM (Groups.insertTerm id) [] : Except Fault (Groups Value))
    if groups.length = ts.length then return f
    newFunctionOf (← groups.filterMapM mergedGroup) none f.constant

/-- The function object in normal form: itself if it is so already. -/
def FunctionObject.normalized (f : FunctionObject) : Making FunctionObject := do
  match f.function? with
  | none => f.mergedByHand
  | some g =>
    match ← orOverflow g.normalForm? with
    | .unchanged => return f
    | .replaced h => newFunctionOf (← h.terms.mapM f.mergedTerm) none f.constant

namespace Value

/-- A function in normal form. -/
def normalized : Value → Making Value
  | function serial m ts c => do return (← FunctionObject.normalized ⟨serial, m, ts, c⟩).toValue
  | v => throw (v.without "normalized")

/-! ## Models -/

/-- The objective of a model in normal form, nothing for nothing. -/
def normalizedObjective : Value → Making Value
  | nothing => return nothing
  | v => do
    let f ← (← v.part "function").normalized
    match v with
    | objective _ _ o => return objective (← fresh) f o
    | _ => throw (v.without "optimization")

/-- A constraint of a model in normal form. -/
def normalizedConstraint (v : Value) : Making Value := do
  let f ← (← v.part "function").normalized
  match v with
  | constraint _ _ c b => return constraint (← fresh) f c b
  | _ => throw (v.without "comparison")

/-- A constraint with its label, in normal form. -/
def normalizedPair (pair : Value) : Making Value :=
  match pair.elements with
  | v :: labels => do newTuple ((← v.normalizedConstraint) :: labels)
  | [] => newTuple []

/-- A model in normal form, made anew. -/
def normalizedModel : Value → Making Value
  | model _ name o cs => do
    let o' ← o.normalizedObjective
    let pairs ← cs.elements.mapM normalizedPair
    return model (← fresh) name o' (← newTuple pairs)
  | v => throw (v.without "objective")

end Value

end LinearProgram.Session
