/-!
# The field of reals of a linear program

Everything about linear functions is stated over a type `R` of reals with the
operations of `Scalar`.  A program runs over the doubles, where operations round
and comparisons know NaN; over the rationals the same definitions are exact, and
say what a model means.
-/
namespace LinearProgram

/-- Reals with the operations that linear functions need. -/
class Scalar (R : Type) extends Zero R, One R, Add R, Sub R, Mul R, Neg R where
  /-- The real nearest to an integer; none beyond the range. -/
  ofInt? : Int → Option R
  /-- Equality of values, by which NaN differs from itself. -/
  eq : R → R → Bool
  /-- Strict order of values. -/
  lt : R → R → Bool
  /-- Order of values. -/
  le : R → R → Bool
  /-- The exact order of a real and an integer; none for NaN. -/
  compareInt : R → Int → Option Ordering

/-- The order of two reals; none when one of them is NaN. -/
def Scalar.compare? {R : Type} [Scalar R] (x y : R) : Option Ordering :=
  if Scalar.lt x y then some .lt
  else if Scalar.eq x y then some .eq
  else if Scalar.lt y x then some .gt
  else none

/-- Rationals are exact, and every integer is one. -/
instance : Scalar Rat where
  zero := 0
  one := 1
  add := (· + ·)
  sub := (· - ·)
  mul := (· * ·)
  neg := (- ·)
  ofInt? n := some n
  eq x y := x == y
  lt x y := decide (x < y)
  le x y := decide (x ≤ y)
  compareInt x n := some (if x < n then .lt else if x == n then .eq else .gt)

end LinearProgram
