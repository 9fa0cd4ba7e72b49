import LinearProgram.Decimal.Rounding
/-!
# Writing decimal digits

Given the digits of a number and the power of ten of the leading one, `Layout.render`
chooses between positional notation (`0.0012`, `1500.0`) and scientific notation
(`1.2e-05`).  A `Layout` is the choice: which exponents are positional, and
whether an integral number keeps a point.
-/
namespace LinearProgram.Decimal

/-- When digits are written positionally, and how integral values then look. -/
structure Layout where
  /-- The least exponent that is written positionally. -/
  positionalFrom : Int
  /-- The least exponent above it that is scientific again. -/
  positionalBelow : Int
  /-- An integral value written positionally ends in `.0`. -/
  keepPoint : Bool
deriving DecidableEq, Repr

/-- The digits padded with zeros on the left to a least width. -/
def padded (width n : Nat) : List Char :=
  (digits n).leftpad width '0'

/-- The power of ten at the end of a scientific number: sign and at least two digits. -/
def exponentText (e : Int) : List Char :=
  'e' :: (if e < 0 then '-' else '+') :: padded 2 e.natAbs

/-- One digit, the point and the others if there are others, and the exponent. -/
def scientificText (ds : List Char) (e : Int) : List Char :=
  match ds with
  | [] => []
  | [d] => d :: exponentText e
  | d :: rest => d :: '.' :: (rest ++ exponentText e)

/-- The digits around the point; `keepPoint` adds `.0` to an integral value. -/
def positionalText (keepPoint : Bool) (ds : List Char) (e : Int) : List Char :=
  if e < 0 then
    '0' :: '.' :: (List.replicate (-e - 1).toNat '0' ++ ds)
  else
    let whole := e.toNat + 1
    if ds.length ≤ whole then
      ds ++ List.replicate (whole - ds.length) '0' ++ (if keepPoint then ['.', '0'] else [])
    else
      ds.take whole ++ '.' :: ds.drop whole

/-- The text of `± d.ddd · 10 ^ e` for the digits `ds`. -/
def Layout.render (layout : Layout) (negative : Bool) (ds : List Char) (e : Int) : List Char :=
  (if negative then ['-'] else []) ++
    (if layout.positionalFrom ≤ e && e < layout.positionalBelow then
      positionalText layout.keepPoint ds e
    else scientificText ds e)

/-- Digits without the zeros at their end; at least one digit is kept. -/
def trimZeros (ds : List Char) : List Char :=
  match (ds.reverse.dropWhile (· == '0')).reverse with
  | [] => ['0']
  | kept => kept

end LinearProgram.Decimal
