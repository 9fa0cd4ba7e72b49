import LinearProgram.Decimal.Binary
import LinearProgram.Decimal.Layout
/-!
# A fixed number of significant digits

Two texts of a double with a given number of digits, each rounded once from the
exact value, a half to the even neighbour: `scientific` writes all its digits in
scientific notation, `general` drops the zeros at the end and writes numbers of
moderate size positionally.
-/
namespace LinearProgram.Decimal

/-- The digits of `m · 2 ^ e` rounded to `k` of them, and the power of ten of the first. -/
def rounded (k : Nat) (m : Nat) (e : Int) : List Char × Int :=
  if m = 0 then (List.replicate k '0', 0)
  else
    let s := significant k (numerator m e) (denominator e)
    (digits s.coefficient, s.exponent)

/-- The double in scientific notation with `places` digits after the point. -/
def scientific (places : Nat) (x : Float) : List Char :=
  match reading x with
  | .nan => ['n', 'a', 'n']
  | .infinite negative => if negative then ['-', 'i', 'n', 'f'] else ['i', 'n', 'f']
  | .finite negative m e =>
    let s := rounded (places + 1) m e
    (if negative then ['-'] else []) ++ scientificText s.1 s.2

/-- The double with `k` significant digits, without zeros at the end, and
positional from 0.0001 up to `k` digits before the point. -/
def general (k : Nat) (x : Float) : List Char :=
  match reading x with
  | .nan => ['n', 'a', 'n']
  | .infinite negative => if negative then ['-', 'i', 'n', 'f'] else ['i', 'n', 'f']
  | .finite negative m e =>
    let s := rounded k m e
    Layout.render ⟨-4, k, false⟩ negative (trimZeros s.1) s.2

end LinearProgram.Decimal
