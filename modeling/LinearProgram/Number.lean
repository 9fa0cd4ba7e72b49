import LinearProgram.Scalar
/-!
# Numbers as they are given

A factor or a bound may be given as an integer of any size, as a truth value
(which counts as 1 or 0) or as a real, and stays what it is until it meets a
real.  Integers combine exactly; an integer that meets a real is first rounded to
one, which fails (`none`) when it is too large.
-/
namespace LinearProgram

/-- A number as given: an integer, a truth value, or a real. -/
inductive Number (R : Type) where
  | int (n : Int)
  | bool (b : Bool)
  | real (x : R)
deriving DecidableEq, Repr

namespace Number

variable {R : Type}

/-- The integer that an exact number stands for. -/
def integer? : Number R → Option Int
  | int n => some n
  | bool b => some (if b then 1 else 0)
  | real _ => none

variable [Scalar R]

/-- The number as a real; none when it is an integer beyond the range. -/
def real? : Number R → Option R
  | int n => Scalar.ofInt? n
  | bool b => Scalar.ofInt? (if b then 1 else 0)
  | real x => some x

/-- The sum: exact for two integers, otherwise of reals. -/
def add? (a b : Number R) : Option (Number R) :=
  match a.integer?, b.integer? with
  | some m, some n => some (int (m + n))
  | _, _ => do return real ((← a.real?) + (← b.real?))

/-- The difference: exact for two integers, otherwise of reals. -/
def sub? (a b : Number R) : Option (Number R) :=
  match a.integer?, b.integer? with
  | some m, some n => some (int (m - n))
  | _, _ => do return real ((← a.real?) - (← b.real?))

/-- The product: exact for two integers, otherwise of reals. -/
def mul? (a b : Number R) : Option (Number R) :=
  match a.integer?, b.integer? with
  | some m, some n => some (int (m * n))
  | _, _ => do return real ((← a.real?) * (← b.real?))

/-- The number itself; a truth value becomes an integer. -/
def plus : Number R → Number R
  | int n => int n
  | bool b => int (if b then 1 else 0)
  | real x => real x

/-- The negative number; a truth value becomes an integer. -/
def negated : Number R → Number R
  | int n => int (-n)
  | bool b => int (if b then -1 else 0)
  | real x => real (-x)

/-- The exact order of two numbers; none when one of them is NaN. -/
def compare? (a b : Number R) : Option Ordering :=
  match a, b with
  | real x, real y => Scalar.compare? x y
  | real x, b => b.integer?.bind (Scalar.compareInt x)
  | a, real y => a.integer?.bind fun m => (Scalar.compareInt y m).map Ordering.swap
  | a, b => a.integer?.bind fun m => b.integer?.map fun n => compare m n

/-- Whether two numbers have the same value. -/
def equals (a b : Number R) : Bool :=
  a.compare? b = some .eq

/-- Whether the first number is less than the second. -/
def less (a b : Number R) : Bool :=
  a.compare? b = some .lt

/-- Whether the number is zero, of either sign; NaN is not. -/
def isZero : Number R → Bool
  | int n => n = 0
  | bool b => !b
  | real x => Scalar.eq x 0

/-- The sum of a list from the integer 0, from left to right.  Each addition is rounded on its own,
and nothing makes up for what rounding loses. -/
def sum? (xs : List (Number R)) : Option (Number R) :=
  xs.foldlM add? (int 0)

end Number

end LinearProgram
