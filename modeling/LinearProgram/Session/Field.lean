import LinearProgram.Session.Normalized
/-!
# Fields

The fields of a value under their names: its parts, which are read as the same object
each time, and what is made when it is read, such as the terms of a variable or the
variables of a model.
-/
namespace LinearProgram.Session

namespace Value

/-! ## Models -/

/-- The function of an objective, unless there is nothing. -/
def objectiveFunctions : Value → Except Fault (List Value)
  | nothing => .ok []
  | o => (o.part "function").map ([·])

/-- The functions of a model: that of the objective, and those of the constraints. -/
def functions : Value → Except Fault (List Value)
  | model _ _ o cs => do
    let first ← o.objectiveFunctions
    return first ++ (← cs.elements.mapM fun pair => (pair.elements.headD nothing).part "function")
  | v => .error (v.without "functions")

/-- Values with another one, unless it is among them. -/
def withUnknown (vs : List Value) (v : Value) : Except Fault (List Value) :=
  if !v.isHashable then .error .unsupported
  else .ok (if vs.any (·.coincides v) then vs else vs ++ [v])

/-- The distinct unknowns of a model in the order of first occurrence. -/
def unknowns : Value → Except Fault (List Value)
  | model serial name o cs => do
    let terms := (← (model serial name o cs).functions).flatMap termList
    terms.foldlM (fun vs t => do withUnknown vs (← t.part "variable")) []
  | v => .error (v.without "variables")

/-- The direction of an objective, or of a model: that of its objective, or the usual one for
nothing. -/
def direction : Value → Except Fault Value
  | objective _ _ o => .ok (word (.optimization o))
  | model _ _ nothing _ => .ok (word (.optimization .minimize))
  | model _ _ o _ => o.direction
  | v => .error (v.without "optimization")

/-! ## Fields -/

/-- The fields of a value that are made when they are read. -/
def madeFields : Value → List (Text × Making Value)
  | .variable id name d lo hi =>
    [("terms", do newTuple [← termOf (.variable id name d lo hi)]), ("constant", return .ofReal .zero)]
  | model serial name o cs =>
    let m := model serial name o cs
    [("optimization", do return ← m.direction),
      ("variables", do newList (← m.unknowns))]
  | number m k =>
    match k with
    | .real _ => [("real", return number m k), ("imag", newNumber (.real 0))]
    | k => [("real", if k.plus = k then return number m k else newNumber k.plus),
        ("imag", newNumber (.int 0)),
        ("numerator", if k.plus = k then return number m k else newNumber k.plus),
        ("denominator", newNumber (.int 1))]
  | _ => []

/-- The fields of a value. -/
def fields (v : Value) : List (Text × Making Value) :=
  v.parts.map (fun p => (p.1, return p.2)) ++ v.madeFields

/-- The field of a value with a name. -/
def field (name : Text) (v : Value) : Making Value :=
  (v.fields.lookup name).getD (throw (v.without name))

/-- The class that the fields of a number belong to. -/
def numberClass : Number Float → Text
  | .real _ => "float"
  | _ => "int"

/-- Giving a field of a value another value: what was made cannot be changed, a choice
takes fields beside its own, and other values have none to give. -/
def setField (name : Text) (v : Value) : Making Value :=
  let shown := Text.quoted name
  let isField := (v.fields.lookup name).isSome
  match v with
  | .variable _ _ _ _ _ | term _ _ _ | function _ _ _ _ | constraint _ _ _ _ | objective _ _ _
  | model _ _ _ _ => throw (.frozen shown)
  | word _ => if isField then throw (.fixedField shown) else return nothing
  | number _ k => throw (if isField then .constantField shown (numberClass k) else v.without name)
  | v => throw (v.without name)

end Value

end LinearProgram.Session
