import LinearProgram.Session.Equality
import LinearProgram.Session.Operator
/-!
# Calls

Terms, functions and constraints are called with a value for each name.  The values need
not be numbers: a function in the place of a number is multiplied and added like one,
so a call can put functions into a function.  `LinearFunction.value?` is the call with
numbers alone.
-/
namespace LinearProgram.Session

/-- The value given to a name, the real 0 if none is. -/
def valueAt (values : List (Text × Value)) (name : Value) : Making Value :=
  if !name.isHashable then throw .unsupported
  else return (name.text?.bind (values.lookup ·)).getD (.ofReal .zero)

mutual

/-- A term, a function or a constraint called with values: the value of the unknown times
the factor, the values of the terms added to the constant in order, or the value of the
function compared with the constant. -/
def Value.call (values : List (Text × Value)) : Value → Making Value
  | .term _ x factor => do (← valueAt values (← x.part "name")).mul factor
  | .function _ _ terms constant => callTerms values (.ofReal constant) terms
  | .constraint _ f comparison constant => do
    let left ← f.call values
    match comparison with
    | .lte => left.order .atMost (.ofReal constant)
    | .gte => left.order .atLeast (.ofReal constant)
    | .eq => left.equals (.ofReal constant)
  | _ => throw .unsupported

/-- The values of terms added to a sum, in order. -/
def callTerms (values : List (Text × Value)) (sum : Value) : List Value → Making Value
  | [] => return sum
  | t :: ts => do callTerms values (← sum.add (← t.call values)) ts

end

end LinearProgram.Session
