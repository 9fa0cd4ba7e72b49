import LinearProgram.Constraint
/-!
# The operators of linear expressions

An operand is a number or a linear expression.  Addition, subtraction and
multiplication take a number on either side; a comparison of an expression with a
number is a constraint, whichever side the number is on.  A list is added up in
two ways that agree: `sum?` adds one operand after another to the integer 0,
`total?` turns each into a function and joins them.
-/
namespace LinearProgram

/-- What an operator combines. -/
inductive Operand (R : Type) where
  | number (k : Number R)
  | expression (f : LinearFunction R)
deriving DecidableEq, Repr

/-- Why an operator has no answer. -/
inductive OperatorFault where
  /-- An integer is too large to become a real. -/
  | overflow
  /-- The operator has no meaning for these operands. -/
  | unsupported
deriving DecidableEq, Repr

namespace Operand

variable {R : Type} [Scalar R]

/-- An answer that fails by an integer that is too large. -/
def orOverflow {α β : Type} (wrap : α → β) : Option α → Except OperatorFault β
  | some a => .ok (wrap a)
  | none => .error .overflow

/-- `+ a`. -/
def plus : Operand R → Operand R
  | number k => number k.plus
  | expression f => expression f

/-- `- a`. -/
def neg : Operand R → Operand R
  | number k => number k.negated
  | expression f => expression f.neg

/-- `a + b`. -/
def add? : Operand R → Operand R → Except OperatorFault (Operand R)
  | number j, number k => orOverflow number (j.add? k)
  | number k, expression f => orOverflow expression (LinearFunction.numberAdd? k f)
  | expression f, number k => orOverflow expression (f.addNumber? k)
  | expression f, expression g => .ok (expression (f.add g))

/-- `a - b`. -/
def sub? : Operand R → Operand R → Except OperatorFault (Operand R)
  | number j, number k => orOverflow number (j.sub? k)
  | number k, expression f => orOverflow expression (LinearFunction.numberSub? k f)
  | expression f, number k => orOverflow expression (f.subNumber? k)
  | expression f, expression g => .ok (expression (f.sub g))

/-- `a * b`, for at most one expression. -/
def mul? : Operand R → Operand R → Except OperatorFault (Operand R)
  | number j, number k => orOverflow number (j.mul? k)
  | number k, expression f => orOverflow expression (f.scale? k)
  | expression f, number k => orOverflow expression (f.scale? k)
  | expression _, expression _ => .error .unsupported

/-- The constraint that compares an expression with a number, on either side. -/
def compare? (c : Comparison) : Operand R → Operand R → Except OperatorFault (Constraint R)
  | expression f, number k => orOverflow (⟨f, c, ·⟩) k.real?
  | number k, expression f => orOverflow (⟨f, c.flipped, ·⟩) k.real?
  | _, _ => .error .unsupported

/-- The operand as a linear function. -/
def toFunction? : Operand R → Option (LinearFunction R)
  | number k => LinearFunction.ofNumber? k
  | expression f => some f

/-- The operands added one after another to the integer 0. -/
def sum? (es : List (Operand R)) : Except OperatorFault (Operand R) :=
  es.foldlM add? (number (.int 0))

/-- The operands as functions, joined. -/
def total? (es : List (Operand R)) : Option (LinearFunction R) :=
  (es.mapM toFunction?).map LinearFunction.total

end Operand

end LinearProgram
