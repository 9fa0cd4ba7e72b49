/-!
# What a double stands for

A finite double is exactly `± mantissa · 2 ^ exponent`.  `reading` takes a
double apart, and the exact value is then a fraction of natural numbers
(`numerator`, `denominator`) or a rational (`exactValue?`), on which texts are
computed and integers compared without any rounding.
-/
namespace LinearProgram.Decimal

/-- The three things a double can be.  Both zeros are finite with mantissa 0. -/
inductive Reading where
  | nan
  | infinite (negative : Bool)
  | finite (negative : Bool) (mantissa : Nat) (exponent : Int)
deriving DecidableEq, Repr

private def isMinus : Float.Model.UnpackedFloat.Sign → Bool
  | .negative => true
  | .positive => false

/-- Takes a double apart into sign, mantissa and power of two. -/
def reading (x : Float) : Reading :=
  match x.toModel.unpack with
  | .notANumber => .nan
  | .infinity s => .infinite (isMinus s)
  | .zero s => .finite (isMinus s) 0 0
  | .finite s m e _ => .finite (isMinus s) m e

/-- Numerator of `m · 2 ^ e` as a fraction. -/
def numerator (m : Nat) (e : Int) : Nat :=
  m * Nat.pow 2 e.toNat

/-- Denominator of `m · 2 ^ e` as a fraction. -/
def denominator (e : Int) : Nat :=
  Nat.pow 2 (-e).toNat

/-- The exact value of a finite double; none for an infinity or a NaN. -/
def exactValue? (x : Float) : Option Rat :=
  match reading x with
  | .finite negative m e =>
    let v := mkRat (numerator m e) (denominator e)
    some (if negative then -v else v)
  | _ => none

/-- Positive infinity. -/
def infinity : Float := 1.0 / 0.0

/-- The value that is not a number. -/
def nan : Float := 0.0 / 0.0

end LinearProgram.Decimal
