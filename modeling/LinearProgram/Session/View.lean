import LinearProgram.Session.Equality
import LinearProgram.Session.Text
/-!
# Views

A view shows a value, with a number in the place of each variable that it refers to.
Making a view reads the parts of the value in order.  A value that misses one of them has
no view, but it remains what it is and can be used further.
-/
namespace LinearProgram.Session

/-- A variable with its identity. -/
structure VariableView where
  id : Nat
  name : Value
  domain : Domain
  minimum : Value
  maximum : Value

/-- A function, with the identities of its variables. -/
structure FunctionView where
  terms : List (Nat × Value)
  constant : Float

/-- A constraint as it is shown. -/
structure ConstraintView where
  function : FunctionView
  comparison : Comparison
  constant : Float

/-- An objective as it is shown. -/
structure ObjectiveView where
  function : FunctionView
  optimization : Optimization

/-- A model as it is shown, constraints with their labels. -/
structure ModelView where
  name : Value
  objective? : Option ObjectiveView
  constraints : List (ConstraintView × List Value)

/-- What is shown of a value. -/
inductive View where
  /-- A value without parts that are shown. -/
  | plain (v : Value)
  | list (items : List View)
  | variable (v : VariableView)
  | term (id : Nat) (factor : Value)
  | function (f : FunctionView)
  | constraint (c : ConstraintView)
  | objective (o : ObjectiveView)
  | model (m : ModelView)

namespace Value

/-- The identity of an unknown, which only variables have. -/
def identity : Value → Except Fault Nat
  | .variable id _ _ _ _ => .ok id
  | v => do if v.isHashable then throw (.unknownName (← v.full)) else throw .unsupported

/-- A term: the identity of its unknown, and its factor. -/
def termView (t : Value) : Except Fault (Nat × Value) := do
  let x ← t.part "variable"
  return (← x.identity, ← t.part "factor")

/-- A function as it is shown. -/
def functionView : Value → Except Fault FunctionView
  | function _ _ ts c => do return ⟨← ts.mapM termView, c.value⟩
  | v => .error (v.without "terms")

/-- A constraint as it is shown. -/
def constraintView (v : Value) : Except Fault ConstraintView := do
  let f ← (← v.part "function").functionView
  match v with
  | constraint _ _ c b => return ⟨f, c, b.value⟩
  | v => throw (v.without "comparison")

/-- An objective as it is shown. -/
def objectiveView (v : Value) : Except Fault ObjectiveView := do
  let f ← (← v.part "function").functionView
  match v with
  | objective _ _ o => return ⟨f, o⟩
  | v => throw (v.without "optimization")

/-- A constraint with its label. -/
def pairView (pair : Value) : Except Fault (ConstraintView × List Value) :=
  match pair.elements with
  | c :: labels => do return (← c.constraintView, labels)
  | [] => .error .unsupported

/-- A model as it is shown. -/
def modelView (v : Value) : Except Fault ModelView := do
  let name ← v.part "name"
  let objective? ← match ← v.part "objective" with
    | nothing => pure none
    | o => do pure (some (← o.objectiveView))
  return ⟨name, objective?, ← (← v.pairs).mapM pairView⟩

mutual

/-- A value as it is shown. -/
def view : Value → Except Fault View
  | list _ vs | tuple _ vs => do return .list (← views vs)
  | .variable id name d lo hi => .ok (.variable ⟨id, name, d, lo, hi⟩)
  | term serial x k => do
    let t ← (term serial x k).termView
    return .term t.1 t.2
  | function serial m ts c => do return .function (← (function serial m ts c).functionView)
  | constraint serial f r c => do return .constraint (← (constraint serial f r c).constraintView)
  | objective serial f o => do return .objective (← (objective serial f o).objectiveView)
  | model serial name o cs => do return .model (← (model serial name o cs).modelView)
  | v => .ok (.plain v)

/-- The values of a list as they are shown. -/
def views : List Value → Except Fault (List View)
  | [] => .ok []
  | v :: vs => do return (← v.view) :: (← views vs)

end

end Value

end LinearProgram.Session
