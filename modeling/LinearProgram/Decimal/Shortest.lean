import LinearProgram.Decimal.Binary
import LinearProgram.Decimal.Layout
/-!
# The fewest digits that read back

Every real in the interval around a double's exact value (half way to its
neighbours, ends included when the mantissa is even) reads back as that double.
`shortest` tries 1, 2, … 17 digits: of the two neighbours of the value on each
decimal grid it keeps those inside the interval, and the first grid with one
wins; of two the nearer is taken, and of two equally near the even one.
-/
namespace LinearProgram.Decimal

/-- The interval of reals that read back as a positive double, in quarters of
the unit of its mantissa. -/
structure ReadBack where
  /-- Numerator of the lower end. -/
  lower : Nat
  /-- Numerator of the value itself. -/
  value : Nat
  /-- Numerator of the upper end. -/
  upper : Nat
  /-- The common denominator. -/
  unit : Nat
  /-- The ends belong to the interval. -/
  closed : Bool

/-- The interval of the double `m · 2 ^ e`.  Below a power of two the
neighbour is only half as far, unless the doubles are already at their finest. -/
def ReadBack.of (m : Nat) (e : Int) : ReadBack :=
  let below := if m = Nat.pow 2 52 && -1074 < e then 1 else 2
  { lower := numerator (4 * m - below) (e - 2)
    value := numerator (4 * m) (e - 2)
    upper := numerator (4 * m + 2) (e - 2)
    unit := denominator (e - 2)
    closed := m % 2 = 0 }

/-- Whether the fraction `num / den` reads back. -/
def ReadBack.contains (i : ReadBack) (num den : Nat) : Bool :=
  let x := num * i.unit
  if i.closed then i.lower * den ≤ x && x ≤ i.upper * den
  else i.lower * den < x && x < i.upper * den

/-- The best number of `k` digits that reads back, if there is one; `e` is the
power of ten of the leading digit. -/
def ReadBack.candidate? (i : ReadBack) (e : Int) (k : Nat) : Option Nat :=
  let power := (k : Int) - 1 - e
  let scaled := scale i.value i.unit power
  let c := scaled.1 / scaled.2
  let r := scaled.1 % scaled.2
  let reads (n : Nat) : Bool :=
    let fraction := scale n 1 (-power)
    i.contains fraction.1 fraction.2
  let preferred := roundDiv scaled.1 scaled.2
  let other := if preferred = c then c + 1 else c
  if reads preferred then some preferred
  else if r ≠ 0 && reads other then some other
  else none

/-- Seventeen digits always read back. -/
def mostDigits : Nat := 17

/-- The fewest digits, without zeros at the end, that read back as the positive
double `m · 2 ^ e`, and the power of ten of the first. -/
def shortest (m : Nat) (e : Int) : List Char × Int :=
  let i := ReadBack.of m e
  let x := leadingExponent i.value i.unit
  let found := (List.range mostDigits).findSome? fun k =>
    (i.candidate? x (k + 1)).map fun c => (k + 1, c)
  match found with
  | some (k, c) => (trimZeros (digits c), x + (digitCount c : Int) - k)
  | none =>
    let s := significant mostDigits i.value i.unit
    (trimZeros (digits s.coefficient), s.exponent)

/-- Numbers are written positionally from 0.0001 up to sixteen digits before the
point, and then always with a point. -/
def plain : Layout := ⟨-4, 16, true⟩

/-- The shortest text that reads back as the double. -/
def shortestText (x : Float) : String :=
  match reading x with
  | .nan => "nan"
  | .infinite negative => if negative then "-inf" else "inf"
  | .finite negative 0 _ => String.ofList (plain.render negative ['0'] 0)
  | .finite negative m e =>
    let s := shortest m e
    String.ofList (plain.render negative s.1 s.2)

end LinearProgram.Decimal
