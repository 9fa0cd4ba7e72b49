/-!
# Rounding a positive fraction to a number of decimal digits

A positive fraction `num / den` is rounded to `k` significant decimal digits:
`significant` finds the power of ten of the leading digit, scales by it, and
rounds the quotient to the nearest integer, a half to the even neighbour.  All
of it is exact arithmetic on natural numbers, so the result is the correctly
rounded one whatever the size of the fraction.
-/
namespace LinearProgram.Decimal

/-- The quotient rounded to the nearest integer; a half goes to the even neighbour. -/
def roundDiv (num den : Nat) : Nat :=
  let q := num / den
  let r := num % den
  if 2 * r < den then q
  else if den < 2 * r then q + 1
  else if q % 2 = 0 then q
  else q + 1

/-- The decimal digits of a number, most significant first. -/
def digits (n : Nat) : List Char :=
  Nat.toDigits 10 n

/-- How many decimal digits a number takes. -/
def digitCount (n : Nat) : Nat :=
  (digits n).length

/-- A fraction multiplied by a power of ten, as a new fraction. -/
def scale (num den : Nat) (power : Int) : Nat × Nat :=
  (num * Nat.pow 10 power.toNat, den * Nat.pow 10 (-power).toNat)

/-- The power of ten of the leading digit of a positive fraction: the `e` with
`10 ^ e ≤ num / den < 10 ^ (e + 1)`. -/
def leadingExponent (num den : Nat) : Int :=
  let guess := (digitCount num : Int) - digitCount den
  let scaled := scale num den (-guess)
  if scaled.2 ≤ scaled.1 then guess else guess - 1

/-- A decimal `d.ddd · 10 ^ exponent`, written as its digits without the point. -/
structure Scientific where
  /-- All the digits, as one number. -/
  coefficient : Nat
  /-- The power of ten of the leading digit. -/
  exponent : Int
deriving DecidableEq, Repr

/-- A positive fraction rounded to `k` significant digits (`0 < k`).  A round
up to the next power of ten moves the exponent. -/
def significant (k : Nat) (num den : Nat) : Scientific :=
  let e := leadingExponent num den
  let scaled := scale num den ((k : Int) - 1 - e)
  let c := roundDiv scaled.1 scaled.2
  if c = Nat.pow 10 k then ⟨Nat.pow 10 (k - 1), e + 1⟩ else ⟨c, e⟩

end LinearProgram.Decimal
