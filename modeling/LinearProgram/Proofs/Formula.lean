import Mathlib
import LinearProgram.Proofs.Operators
/-!
# Formulas mean what they say

A formula is written with the operators of linear expressions over variables and numbers,
nested as one likes: signs, sums, differences, products with a number on one side, and lists
that are added up in either of the two ways.  `eval?` applies the operators; `leaves` and
`value` say without them which variables stand in a formula, from left to right, and what
it is worth under a valuation of names.

The main statement is `eval?_means`.  Over any reals the answer has one term for each
leaf, in order, unless an integer is too large; nothing else can go wrong.  Over the
rationals there always is an answer, and its value is that of the formula; so is the truth of
a comparison with a number, on whichever side the number stands.

## How the proof goes

A formula is followed constructor by constructor, together with the lists that stand in
it: each case is the law of one operator.  The comparisons need the value only.
-/
namespace LinearProgram

/-- An arithmetic expression over variables and numbers. -/
inductive Formula (R : Type) where
  | var (v : Variable R)
  | number (k : Number R)
  | plus (e : Formula R)
  | neg (e : Formula R)
  | add (a b : Formula R)
  | sub (a b : Formula R)
  | mul (a b : Formula R)
  /-- Joined to one function. -/
  | total (es : List (Formula R))
  /-- Added one after another to the integer 0. -/
  | sum (es : List (Formula R))

namespace Formula

variable {R : Type}

mutual

/-- The variables, from left to right, as often as they stand there. -/
def leaves : Formula R → List (Variable R)
  | var v => [v]
  | number _ => []
  | plus e | neg e => e.leaves
  | add a b | sub a b | mul a b => a.leaves ++ b.leaves
  | total es | sum es => leavesOfAll es

def leavesOfAll : List (Formula R) → List (Variable R)
  | [] => []
  | e :: es => e.leaves ++ leavesOfAll es

end

mutual

/-- Whether a formula is a number: no variable stands in it, and no list is joined. -/
def isNumber : Formula R → Bool
  | var _ | total _ => false
  | number _ => true
  | plus e | neg e => e.isNumber
  | add a b | sub a b | mul a b => a.isNumber && b.isNumber
  | sum es => areNumbers es

def areNumbers : List (Formula R) → Bool
  | [] => true
  | e :: es => e.isNumber && areNumbers es

end

mutual

/-- Whether every product has a number on one side. -/
def isLinear : Formula R → Bool
  | var _ | number _ => true
  | plus e | neg e => e.isLinear
  | add a b | sub a b => a.isLinear && b.isLinear
  | mul a b => a.isLinear && b.isLinear && (a.isNumber || b.isNumber)
  | total es | sum es => areLinear es

def areLinear : List (Formula R) → Bool
  | [] => true
  | e :: es => e.isLinear && areLinear es

end

mutual

/-- What a formula is worth under a valuation of names. -/
def value (values : Text → Number Rat) : Formula Rat → Rat
  | var v => (values v.name).toRat
  | number k => k.toRat
  | plus e => e.value values
  | neg e => -e.value values
  | add a b => a.value values + b.value values
  | sub a b => a.value values - b.value values
  | mul a b => a.value values * b.value values
  | total es | sum es => valueOfAll values es

def valueOfAll (values : Text → Number Rat) : List (Formula Rat) → Rat
  | [] => 0
  | e :: es => e.value values + valueOfAll values es

end

variable [Scalar R]

mutual

/-- What the operators make of a formula. -/
def eval? : Formula R → Except OperatorFault (Operand R)
  | var v => .ok (.expression v.toFunction)
  | number k => .ok (.number k)
  | plus e => do return (← e.eval?).plus
  | neg e => do return (← e.eval?).neg
  | add a b => do (← a.eval?).add? (← b.eval?)
  | sub a b => do (← a.eval?).sub? (← b.eval?)
  | mul a b => do (← a.eval?).mul? (← b.eval?)
  | total es => do Operand.orOverflow .expression (Operand.total? (← evalAll? es))
  | sum es => do Operand.sum? (← evalAll? es)

def evalAll? : List (Formula R) → Except OperatorFault (List (Operand R))
  | [] => .ok []
  | e :: es => do return (← e.eval?) :: (← evalAll? es)

end

/-! ## Which terms the answer has -/

mutual

/-- **The answer has one term for each leaf**, from left to right. -/
theorem eval?_yields : ∀ e : Formula R, e.isLinear = true →
    Operand.Yields e.eval? e.leaves e.isNumber
  | var v, _ => .inr ⟨.expression v.toFunction, rfl, rfl, rfl⟩
  | number k, _ => .inr ⟨.number k, rfl, rfl, rfl⟩
  | plus e, h => by
    refine (eval?_yields e h).bind fun a ha => ?_
    exact .inr ⟨a.plus, rfl, by simpa [leaves, isNumber] using ha⟩
  | neg e, h => by
    refine (eval?_yields e h).bind fun a ha => ?_
    exact .inr ⟨a.neg, rfl, by simpa [leaves, isNumber] using ha⟩
  | add e f, h => by
    obtain ⟨he, hf⟩ := (Bool.and_eq_true _ _).mp h
    exact (eval?_yields e he).bind₂ (eval?_yields f hf)
      fun a b _ _ => Operand.add?_yields a b
  | sub e f, h => by
    obtain ⟨he, hf⟩ := (Bool.and_eq_true _ _).mp h
    exact (eval?_yields e he).bind₂ (eval?_yields f hf)
      fun a b _ _ => Operand.sub?_yields a b
  | mul e f, h => by
    obtain ⟨hef, hnumber⟩ := (Bool.and_eq_true _ _).mp h
    obtain ⟨he, hf⟩ := (Bool.and_eq_true _ _).mp hef
    exact (eval?_yields e he).bind₂ (eval?_yields f hf)
      fun a b ha hb => Operand.mul?_yields (by rwa [ha, hb])
  | total es, h => by
    refine (evalAll?_yields es h).bind fun as has => ?_
    have htotal := Operand.total?_yields as
    rwa [has.1] at htotal
  | sum es, h => by
    refine (evalAll?_yields es h).bind fun as has => ?_
    have hsum := Operand.sum?_yields as
    rwa [has.1, has.2] at hsum

theorem evalAll?_yields : ∀ es : List (Formula R), areLinear es = true →
    OrOverflow (evalAll? es) fun as =>
      as.flatMap Operand.vars = leavesOfAll es ∧ as.all Operand.isNumber = areNumbers es
  | [], _ => .inr ⟨[], rfl, rfl, rfl⟩
  | e :: es, h => by
    obtain ⟨he, hes⟩ := (Bool.and_eq_true _ _).mp h
    refine (eval?_yields e he).bind fun a ha => (evalAll?_yields es hes).bind fun as has => ?_
    refine .inr ⟨a :: as, rfl, ?_, ?_⟩
    · rw [List.flatMap_cons, ha.1, has.1, leavesOfAll]
    · rw [List.all_cons, ha.2, has.2, areNumbers]

end

/-! ## What the answer is worth -/

/-- There is an answer, and it is worth what is said under every valuation of names. -/
def IsWorth (answer : Except OperatorFault (Operand Rat)) (w : (Text → Number Rat) → Rat) : Prop :=
  ∃ a, answer = .ok a ∧ ∀ values, a.exactValue (fun v => (values v.name).toRat) = w values

/-- An operator is applied to the answers of two formulas. -/
theorem IsWorth.bind₂ {x y : Except OperatorFault (Operand Rat)}
    {op : Operand Rat → Operand Rat → Except OperatorFault (Operand Rat)}
    {u w : (Text → Number Rat) → Rat} {g : Rat → Rat → Rat} (hx : IsWorth x u) (hy : IsWorth y w)
    (hop : ∀ a b, x = .ok a → y = .ok b →
      Operand.IsWorth (op a b) fun v => g (a.exactValue v) (b.exactValue v)) :
    IsWorth (x >>= fun a => y >>= op a) fun values => g (u values) (w values) := by
  obtain ⟨a, rfl, ha⟩ := hx
  obtain ⟨b, rfl, hb⟩ := hy
  obtain ⟨c, hc, hval⟩ := hop a b rfl rfl
  refine ⟨c, hc, fun values => ?_⟩
  simp only [hval, ha, hb]

mutual

/-- **The answer is worth what the formula is worth**, and there always is one. -/
theorem eval?_isWorth : ∀ e : Formula Rat, e.isLinear = true →
    IsWorth e.eval? fun values => e.value values
  | var v, _ => by
    refine ⟨.expression v.toFunction, rfl, fun values => ?_⟩
    exact LinearFunction.exactValue_toFunction (fun v => (values v.name).toRat) v
  | number k, _ => ⟨.number k, rfl, fun _ => rfl⟩
  | plus e, h => by
    obtain ⟨a, ha, hval⟩ := eval?_isWorth e h
    refine ⟨a.plus, by rw [eval?, ha]; rfl, fun values => ?_⟩
    exact (Operand.exactValue_plus _ a).trans (hval values)
  | neg e, h => by
    obtain ⟨a, ha, hval⟩ := eval?_isWorth e h
    refine ⟨a.neg, by rw [eval?, ha]; rfl, fun values => ?_⟩
    exact (Operand.exactValue_neg _ a).trans (congrArg (- ·) (hval values))
  | add e f, h => by
    obtain ⟨he, hf⟩ := (Bool.and_eq_true _ _).mp h
    exact (eval?_isWorth e he).bind₂ (eval?_isWorth f hf)
      fun a b _ _ => Operand.add?_isWorth a b
  | sub e f, h => by
    obtain ⟨he, hf⟩ := (Bool.and_eq_true _ _).mp h
    exact (eval?_isWorth e he).bind₂ (eval?_isWorth f hf)
      fun a b _ _ => Operand.sub?_isWorth a b
  | mul e f, h => by
    obtain ⟨hef, hnumber⟩ := (Bool.and_eq_true _ _).mp h
    obtain ⟨he, hf⟩ := (Bool.and_eq_true _ _).mp hef
    refine (eval?_isWorth e he).bind₂ (eval?_isWorth f hf) fun a b ha hb => ?_
    -- an answer is a number exactly when its formula is one
    have hanumber := ((eval?_yields e he).of_ok ha).2
    have hbnumber := ((eval?_yields f hf).of_ok hb).2
    exact Operand.mul?_isWorth (by rwa [hanumber, hbnumber])
  | total es, h => by
    obtain ⟨as, has, hval⟩ := evalAll?_isWorth es h
    obtain ⟨a, ha, haval⟩ := Operand.total?_isWorth as
    refine ⟨a, by rw [eval?, has]; exact ha, fun values => ?_⟩
    simp only [haval, hval, value]
  | sum es, h => by
    obtain ⟨as, has, hval⟩ := evalAll?_isWorth es h
    obtain ⟨a, ha, haval⟩ := Operand.sum?_isWorth as
    refine ⟨a, by rw [eval?, has]; exact ha, fun values => ?_⟩
    simp only [haval, hval, value]

theorem evalAll?_isWorth : ∀ es : List (Formula Rat), areLinear es = true →
    ∃ as, evalAll? es = .ok as ∧
      ∀ values, (as.map (·.exactValue fun v => (values v.name).toRat)).sum = valueOfAll values es
  | [], _ => ⟨[], rfl, fun _ => rfl⟩
  | e :: es, h => by
    obtain ⟨he, hes⟩ := (Bool.and_eq_true _ _).mp h
    obtain ⟨a, ha, hval⟩ := eval?_isWorth e he
    obtain ⟨as, has, hvals⟩ := evalAll?_isWorth es hes
    refine ⟨a :: as, by rw [evalAll?, ha, has]; rfl, fun values => ?_⟩
    rw [List.map_cons, List.sum_cons, hval, hvals, valueOfAll]

end

/-! ## Comparing with a number -/

/-- A comparison gives a constraint that holds under a valuation exactly when `p` does. -/
def Says (answer : Except OperatorFault (Constraint Rat))
    (p : (Text → Number Rat) → Prop) : Prop :=
  ∃ c, answer = .ok c ∧ ∀ values, ∃ b, c.holds? values = some b ∧ (b = true ↔ p values)

theorem relates_flipped (c : Comparison) (x y : Rat) : c.flipped.Relates x y ↔ c.Relates y x := by
  cases c with
  | lte => exact Iff.rfl
  | eq => exact eq_comm
  | gte => exact Iff.rfl

/-- What a function has to do with the formula it was made of. -/
structure Means (e : Formula Rat) (f : LinearFunction Rat) : Prop where
  /-- One term for each leaf, in order; nothing is merged. -/
  vars : f.terms.map (·.var) = e.leaves
  value : ∀ values, f.value? values = some (e.value values)
  compare : ∀ (c : Comparison) (k : Number Rat),
    Says (Operand.compare? c (.expression f) (.number k))
      fun values => c.Relates (e.value values) k.toRat
  compare_left : ∀ (c : Comparison) (k : Number Rat),
    Says (Operand.compare? c (.number k) (.expression f))
      fun values => c.Relates k.toRat (e.value values)

theorem means_of_exactValue {e : Formula Rat} {f : LinearFunction Rat}
    (hvars : f.terms.map (·.var) = e.leaves)
    (hval : ∀ values, f.exactValue (fun v => (values v.name).toRat) = e.value values) :
    e.Means f where
  vars := hvars
  value values := by rw [LinearFunction.value?_eq, hval]
  compare c k := by
    refine ⟨⟨f, c, k.toRat⟩, ?_, fun values => ⟨_, Constraint.holds?_eq _ values, ?_⟩⟩
    · rw [Operand.compare?, Number.real?_eq]
      rfl
    · rw [Comparison.holds_iff, hval]
  compare_left c k := by
    refine ⟨⟨f, c.flipped, k.toRat⟩, ?_, fun values => ⟨_, Constraint.holds?_eq _ values, ?_⟩⟩
    · rw [Operand.compare?, Number.real?_eq]
      rfl
    · rw [Comparison.holds_iff, hval, relates_flipped]

/-- **A formula means what it says.**  Over any reals the answer has one term for each
leaf, unless an integer is too large.  Over the rationals there is an answer: a formula of
numbers is its value, and every other one a function that means it. -/
theorem eval?_means :
    (∀ (R : Type) [Scalar R] (e : Formula R), e.isLinear = true →
      Operand.Yields e.eval? e.leaves e.isNumber) ∧
    ∀ e : Formula Rat, e.isLinear = true →
      (e.isNumber = true → ∃ k, e.eval? = .ok (.number k) ∧ ∀ values, k.toRat = e.value values) ∧
      (e.isNumber = false → ∃ f, e.eval? = .ok (.expression f) ∧ e.Means f) := by
  refine ⟨fun R _ e h => eval?_yields e h, fun e h => ?_⟩
  obtain ⟨a, ha, hval⟩ := eval?_isWorth e h
  obtain ⟨hvars, hnumber⟩ := (eval?_yields e h).of_ok ha
  cases a with
  | number k =>
    refine ⟨fun _ => ⟨k, ha, hval⟩, fun hfalse => ?_⟩
    exact absurd (hnumber.trans hfalse) Bool.true_eq_false.mp
  | expression f =>
    refine ⟨fun htrue => ?_, fun _ => ⟨f, ha, means_of_exactValue hvars hval⟩⟩
    exact absurd (hnumber.trans htrue) Bool.false_ne_true

/-- `sum([a - 2 * b, total([a', 3 - a])]) * 2`, for two variables `a` and `a'` of one name. -/
def twins : Formula Rat :=
  let a : Variable Rat := ⟨1, Text.ofString "a", .real, none, none⟩
  let b : Variable Rat := ⟨2, Text.ofString "b", .integer, none, none⟩
  let a' : Variable Rat := ⟨3, Text.ofString "a", .real, none, none⟩
  mul (sum [sub (var a) (mul (number (.int 2)) (var b)),
    total [var a', sub (number (.int 3)) (var a)]]) (number (.int 2))

theorem eval?_means_twins :
    twins.isLinear = true ∧ twins.isNumber = false ∧ twins.leaves.map (·.id) = [1, 2, 3, 1] ∧
      Operand.Yields twins.eval? twins.leaves false ∧
      ∃ f, twins.eval? = .ok (.expression f) ∧ twins.Means f ∧
        f.value? (fun _ => .int 1) = some 4 := by
  have hlinear : twins.isLinear = true := by decide
  have hnumber : twins.isNumber = false := by decide
  obtain ⟨f, hf, hmeans⟩ := (eval?_means.2 twins hlinear).2 hnumber
  refine ⟨hlinear, hnumber, rfl, eval?_means.1 Rat twins hlinear, f, hf, hmeans, ?_⟩
  rw [hmeans.value]
  simp only [twins, value, valueOfAll, Number.toRat]
  norm_num

end Formula

end LinearProgram
