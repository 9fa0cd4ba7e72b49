import LinearProgram.Session.Call
import LinearProgram.Session.Field
import LinearProgram.Session.Source
/-!
# Actions

What a step of a session can do.  The sources of an action are read one after another,
and a fault ends it where it stands: a word that is not known, for instance, is found
before the constant that follows it is looked at.
-/
namespace LinearProgram.Session

/-- The operators between two values. -/
inductive BinaryOperator where
  | add
  | sub
  | mul
  | div
  | order (r : Order)
  | equal
  | unequal
deriving DecidableEq, Repr

/-- What an operator makes of two values. -/
def BinaryOperator.apply : BinaryOperator → Value → Value → Making Value
  | add => Value.add
  | sub => Value.sub
  | mul => Value.mul
  | div => Value.div
  | order r => Value.order r
  | equal => Value.equals
  | unequal => Value.differs

/-- The choice of a word, or a fault that shows it. -/
def choiceOf {α : Type} (fault : Text → Fault) (ofName? : Text → Option α) (word : Source) :
    Making α := do
  let v ← word.value []
  match v.text?.bind ofName? with
  | some a => return a
  | none => throw (fault (← v.full))

/-- What a step does. -/
inductive Action where
  | newVariable (name domain minimum maximum : Source)
  | value (a : Source)
  | pos (a : Source)
  | neg (a : Source)
  | binary (op : BinaryOperator) (a b : Source)
  | identical (a b : Source)
  | newTerm (a : Source) (factor? : Option Source)
  | negatedTerm (a : Source)
  | scaledTerm (a factor : Source)
  | newFunction (terms : Source) (constant? : Option Source)
  | asFunction (a : Source)
  | total (a : Source)
  | sum (a : Source)
  | normalized (a : Source)
  /-- An expression that is zero. -/
  | newEquation (a : Source)
  | newConstraint (a : Source) (comparison constant : Source)
  | newObjective (a optimization : Source)
  /-- A model; its constraints are pairs with their labels. -/
  | newModel (name objective : Source) (constraints : List Source)
  | normalizedModel (a : Source)
  | call (a : Source) (values : List (Text × Source))
  | distinct (a : Source)
  | contains (a b : Source)
  | text (a : Source)
  | getField (a : Source) (field : Text)
  | setField (a b : Source) (field : Text)

namespace Value

/-- The negative term. -/
def negated : Value → Making Value
  | term _ x factor => do
    let k ← factor.neg
    return term (← fresh) x k
  | v => throw (v.without "negated")

/-- The term scaled by the value that an action makes. -/
def scaled (scale : Making Value) : Value → Making Value
  | term _ x factor => do
    let k ← (← scale).mul factor
    return term (← fresh) x k
  | v => throw (v.without "scaled")

/-- The mark of a tuple. -/
def tupleMark? : Value → Option Mark
  | tuple m _ => some m
  | _ => none

/-- A function with the items of a value as its terms, and a constant. -/
def functionWith (terms constant : Value) : Making Value := do
  let ts ← terms.items
  let c ← constant.asReal
  return (← newFunctionOf ts terms.tupleMark? c).toValue

/-- The items of a value as functions, joined to one. -/
def total (v : Value) : Making Value := do
  let fs ← (← v.items).mapM asFunction
  let terms := fs.flatMap (·.terms)
  let constant? := if fs.isEmpty then some RealObject.zero else none
  match fs.mapM FunctionObject.function? with
  | some gs => return (← newFunction (LinearFunction.total gs) ⟨terms, [], none, constant?⟩).toValue
  | none =>
    let c ← newReal (fs.foldl (fun x f => x + f.constant.value) 0)
    return (← newFunctionOf terms none c).toValue

/-- The items of a value added one after another to the integer 0. -/
def sum (v : Value) : Making Value := do
  (← v.items).foldlM add (number .shared (.int 0))

/-- The text of a value in full.  There is one text for each truth value. -/
def written (v : Value) : Making Value := do
  let t ← v.full
  match v with
  | number _ (.bool _) => return text .shared t
  | _ => return text (.made (← fresh)) t

/-- The number of distinct items of a value. -/
def distinct (v : Value) : Making Value := do
  let vs ← v.items
  if hashableItems vs then newNumber (.int (countDistinct vs)) else throw .unsupported

end Value

/-- A new variable with an identity.  A binary one has the bounds 0 and 1 where none are
given. -/
def declare (id : Nat) (name : Value) (domain : Domain) (minimum maximum : Value) : Value :=
  let bound (given : Value) (usual : Float) : Value :=
    match domain, given with
    | .binary, .nothing => .ofReal ⟨.shared, usual⟩
    | _, v => v
  .variable id name domain (bound minimum 0) (bound maximum 1)

/-- The real that stands where no constant is given. -/
def noConstant : Value := .ofReal .zero

/-- What an action makes of what is kept; a new variable has the given identity. -/
def Action.run (store : Store) (id : Nat) : Action → Making Value
  | newVariable name domain lo hi => do
    let name ← name.value store
    let d ← choiceOf .unknownDomain Domain.ofName? domain
    return declare id name d (← lo.value store) (← hi.value store)
  | value a => a.value store
  | pos a => do (← a.value store).pos
  | neg a => do (← a.value store).neg
  | binary op a b => do op.apply (← a.value store) (← b.value store)
  | identical a b => do return .ofBool ((← a.value store).identical (← b.value store))
  | newTerm a factor? => do
    let x ← a.value store
    let factor ← Source.valueOr store (.ofReal ⟨.shared, 1⟩) factor?
    return .term (← fresh) x factor
  | negatedTerm a => do (← a.value store).negated
  | scaledTerm a factor => do (← a.value store).scaled (factor.value store)
  | newFunction terms constant? => do
    let v ← terms.value store
    v.functionWith (← Source.valueOr store noConstant constant?)
  | asFunction a => do return (← (← a.value store).asFunction).toValue
  | total a => do (← a.value store).total
  | sum a => do (← a.value store).sum
  | normalized a => do (← a.value store).normalized
  | newEquation a => do
    let f ← (← a.value store).asFunction
    return .constraint (← fresh) f.toValue .eq .zero
  | newConstraint a comparison constant => do
    let v ← a.value store
    let c ← choiceOf .unknownComparison Comparison.ofName? comparison
    let b ← constant.value store
    let f ← v.asFunction
    return .constraint (← fresh) f.toValue c (← b.asReal)
  | newObjective a optimization => do
    let v ← a.value store
    let o ← choiceOf .unknownOptimization Optimization.ofName? optimization
    return .objective (← fresh) (← v.asFunction).toValue o
  | newModel name objective constraints => do
    let name ← name.value store
    let o ← objective.value store
    let pairs ← constraints.mapM fun pair => do
      let (c, label) ← pair.pair
      Value.newTuple [← c.value store, ← label.value store]
    return .model (← fresh) name o (← Value.newTuple pairs)
  | normalizedModel a => do (← a.value store).normalizedModel
  | call a values => do
    let v ← a.value store
    v.call (← values.mapM fun p => do return (p.1, ← p.2.value store))
  | distinct a => do (← a.value store).distinct
  | contains a b => do
    let v ← a.value store
    return .ofBool (← v.isIn (← b.value store))
  | text a => do (← a.value store).written
  | getField a field => do (← a.value store).field field
  | setField a b field => do
    let v ← a.value store
    let _ ← b.value store
    v.setField field

/-- Whether an action makes a new variable. -/
def Action.makesVariable : Action → Bool
  | newVariable .. => true
  | _ => false

end LinearProgram.Session
