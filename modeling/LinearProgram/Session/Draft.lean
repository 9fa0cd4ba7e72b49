import LinearProgram.Session.Action
/-!
# Drafts of models

A draft describes a model by words and positions: domains, comparisons and directions by
their words, variables by their position in a list.  The parts of a draft are sources,
read one after another, and the first fault ends the reading: a word that is not known, a
position that is not there, a constant that is no number.  What is not looked at while the
model is made, such as the factor of a term, can be anything.
-/
namespace LinearProgram.Session

namespace Draft

/-- A variable as written down. -/
structure Variable where
  name : Source
  domain : Source
  minimum : Source
  maximum : Source

/-- A function as written down: pairs of a position and a factor, and a constant. -/
structure Function where
  terms : List Source
  constant : Source

/-- An objective as written down. -/
structure Objective where
  function : Function
  optimization : Source

/-- A constraint as written down, with its label. -/
structure Constraint where
  function : Function
  comparison : Source
  bound : Source
  label : Source

end Draft

/-- A model as written down. -/
structure Draft where
  name : Source
  declarations : List Draft.Variable
  objective? : Option Draft.Objective
  constraints : List Draft.Constraint

/-- The value at a position; negative positions count from the end. -/
def Value.at? (vs : List Value) (position : Int) : Option Value :=
  let p := if position < 0 then position + vs.length else position
  if p < 0 then none else vs[p.toNat]?

namespace Draft

/-- The variable of a draft, told apart by its position. -/
def Variable.value (id : Nat) (x : Variable) : Making Value :=
  (Action.newVariable x.name x.domain x.minimum x.maximum).run [] id

/-- The term of a pair. -/
def term (vs : List Value) (pair : Source) : Making Value := do
  let (position, factor) ← pair.pair
  match (← position.value []).integer? with
  | none => throw .unsupported
  | some p =>
    let x ← orFault .noElement (Value.at? vs p)
    let k ← factor.value []
    return .term (← fresh) x k

/-- The function of a draft. -/
def Function.value (vs : List Value) (f : Function) : Making Value := do
  let terms ← f.terms.mapM (term vs)
  let constant ← f.constant.value []
  return (← newFunctionOf terms none (← constant.asReal)).toValue

/-- The objective of a draft. -/
def Objective.value (vs : List Value) (o : Objective) : Making Value := do
  let f ← o.function.value vs
  let direction ← choiceOf .unknownOptimization Optimization.ofName? o.optimization
  return .objective (← fresh) f direction

/-- The constraint of a draft with its label. -/
def Constraint.value (vs : List Value) (c : Constraint) : Making Value := do
  let f ← c.function.value vs
  let comparison ← choiceOf .unknownComparison Comparison.ofName? c.comparison
  let bound ← c.bound.value []
  let v := Value.constraint (← fresh) f comparison (← bound.asReal)
  Value.newTuple [v, ← c.label.value []]

end Draft

/-- The model of a draft: first all variables, then the objective, then the constraints in
order. -/
def Draft.value (d : Draft) : Making Value := do
  let vs ← d.declarations.zipIdx.mapM fun p => p.1.value p.2
  let objective ← d.objective?.elim (pure Value.nothing) (·.value vs)
  let pairs ← d.constraints.mapM (·.value vs)
  return .model (← fresh) (← d.name.value []) objective (← Value.newTuple pairs)

end LinearProgram.Session
