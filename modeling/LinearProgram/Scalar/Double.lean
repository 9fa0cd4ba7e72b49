import LinearProgram.Decimal.Binary
import LinearProgram.Decimal.Rounding
import LinearProgram.Scalar
/-!
# The doubles as the field of a linear program

Operations are those of IEEE 754.  An integer is rounded to the nearest double,
and one that rounds beyond the range has none; against an integer a double is
compared by its exact value.
-/
namespace LinearProgram.Double

open LinearProgram.Decimal (Reading reading numerator denominator roundDiv)

/-- The double nearest to an integer; none beyond the range. -/
def ofInt? (n : Int) : Option Float :=
  let x := Float.ofInt n
  match reading x with
  | .finite .. => some x
  | _ => none

/-- The exact order of a double and an integer; none for NaN. -/
def compareInt (x : Float) (n : Int) : Option Ordering :=
  match reading x with
  | .nan => none
  | .infinite negative => some (if negative then .lt else .gt)
  | .finite negative m e =>
    let value : Int := if negative then -numerator m e else numerator m e
    some (compare value (n * denominator e))

instance : Scalar Float where
  zero := 0.0
  one := 1.0
  add := Float.add
  sub := Float.sub
  mul := Float.mul
  neg := Float.neg
  ofInt? := ofInt?
  eq := Float.beq
  lt x y := decide (x < y)
  le x y := decide (x ≤ y)
  compareInt := compareInt

/-! ## Quotients of integers -/

/-- The least power of two that a double has for its last bit. -/
def leastExponent : Int := -1074

/-- A positive fraction divided by a power of two, as a new fraction. -/
def shifted (num den : Nat) (power : Int) : Nat × Nat :=
  (num * Nat.pow 2 (-power).toNat, den * Nat.pow 2 power.toNat)

/-- The power of two for the last bit of the double nearest to a positive fraction: with it
the fraction is a number of at most 53 bits and as many as there can be. -/
def lastExponent (num den : Nat) : Int :=
  let guess := (Nat.log2 num : Int) - Nat.log2 den - 53
  let scaled := shifted num den guess
  max leastExponent (if Nat.pow 2 53 * scaled.2 ≤ scaled.1 then guess + 1 else guess)

/-- The bits of the double nearest to a positive fraction; a half goes to the even
neighbour.  A round up to the next power of two carries into the exponent. -/
def quotientBits (num den : Nat) : Nat :=
  let e := lastExponent num den
  let scaled := shifted num den e
  (e - leastExponent).toNat * Nat.pow 2 52 + roundDiv scaled.1 scaled.2

/-- The double nearest to the quotient of an integer by another one, not 0; none beyond
the range. -/
def ofQuotient? (n d : Int) : Option Float :=
  let sign := if decide (n < 0) = decide (d < 0) then 0 else Nat.pow 2 63
  let bits := if n = 0 then 0 else quotientBits n.natAbs d.natAbs
  if bits < 0x7FF0000000000000 then some (Float.ofBits (UInt64.ofNat (sign + bits))) else none

/-- A value that is neither infinite nor NaN. -/
def isFinite (x : Float) : Bool :=
  match reading x with
  | .finite .. => true
  | _ => false

end LinearProgram.Double
