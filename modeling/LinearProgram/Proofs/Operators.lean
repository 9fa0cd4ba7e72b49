import Mathlib
import LinearProgram.Operand
import LinearProgram.Proofs.Exact
/-!
# What the operators do

Every operator has two laws.  Over any reals, the variables of the answer are those of the
operands, one after another, and the answer is a number exactly when they are; the one thing
that can go wrong is an integer too large to become a real (`Yields`).  Over the rationals
nothing goes wrong, and the answer is worth what the operator makes of the values
(`IsWorth`).

## How the proof goes

A list of terms is worth a sum, so the laws of functions are laws of sums: joining adds
them, negating and scaling go through term by term.  The laws of the operators follow by
cases on which operands are numbers; the two ways of adding up a list take an induction
along it.
-/
namespace LinearProgram

/-! ## Operands -/

namespace Operand

variable {R : Type}

def isNumber : Operand R → Bool
  | number _ => true
  | expression _ => false

/-- The variables of the terms, in order. -/
def vars : Operand R → List (Variable R)
  | number _ => []
  | expression f => f.terms.map (·.var)

/-- The exact value of an operand under values of the variables. -/
def exactValue (x : Variable Rat → Rat) : Operand Rat → Rat
  | number k => k.toRat
  | expression f => f.exactValue x

end Operand

/-- The answer has a property, unless an integer is too large to give one. -/
def OrOverflow {α : Type} (answer : Except OperatorFault α) (p : α → Prop) : Prop :=
  answer = .error .overflow ∨ ∃ a, answer = .ok a ∧ p a

theorem OrOverflow.bind {α β : Type} {answer : Except OperatorFault α}
    {f : α → Except OperatorFault β} {p : α → Prop} {q : β → Prop} (h : OrOverflow answer p)
    (hf : ∀ a, p a → OrOverflow (f a) q) : OrOverflow (answer >>= f) q := by
  rcases h with rfl | ⟨a, rfl, ha⟩
  · exact .inl rfl
  · exact hf a ha

theorem OrOverflow.of_ok {α : Type} {answer : Except OperatorFault α} {p : α → Prop} {a : α}
    (h : OrOverflow answer p) (ha : answer = .ok a) : p a := by
  subst ha
  rcases h with h | ⟨b, hb, hp⟩
  · cases h
  · obtain rfl := Except.ok.inj hb
    exact hp

/-! ## Which terms an answer has -/

namespace Operand

section

variable {R : Type}

/-- The answer is an operand with these variables, a number or not, unless an integer is too
large. -/
def Yields (answer : Except OperatorFault (Operand R)) (vs : List (Variable R))
    (number : Bool) : Prop :=
  OrOverflow answer fun a => a.vars = vs ∧ a.isNumber = number

/-- An operator is applied to two answers. -/
theorem Yields.bind₂ {x y : Except OperatorFault (Operand R)}
    {op : Operand R → Operand R → Except OperatorFault (Operand R)} {us vs : List (Variable R)}
    {j k : Bool} (hx : Yields x us j) (hy : Yields y vs k)
    (hop : ∀ a b, a.isNumber = j → b.isNumber = k →
      Yields (op a b) (a.vars ++ b.vars) (a.isNumber && b.isNumber)) :
    Yields (x >>= fun a => y >>= op a) (us ++ vs) (j && k) := by
  refine OrOverflow.bind hx fun a ha => OrOverflow.bind hy fun b hb => ?_
  have hab := hop a b ha.2 hb.2
  rwa [ha.1, hb.1, ha.2, hb.2] at hab

theorem yields_orOverflow_number (k? : Option (Number R)) :
    Yields (orOverflow number k?) [] true := by
  cases k? with
  | none => exact .inl rfl
  | some k => exact .inr ⟨number k, rfl, rfl, rfl⟩

theorem yields_orOverflow_expression {vs : List (Variable R)} {f? : Option (LinearFunction R)}
    (h : ∀ f, f? = some f → f.terms.map (·.var) = vs) :
    Yields (orOverflow expression f?) vs false := by
  cases f? with
  | none => exact .inl rfl
  | some f => exact .inr ⟨expression f, rfl, h f rfl, rfl⟩

@[simp] theorem vars_plus (a : Operand R) : a.plus.vars = a.vars := by
  cases a <;> rfl

@[simp] theorem isNumber_plus (a : Operand R) : a.plus.isNumber = a.isNumber := by
  cases a <;> rfl

variable [Scalar R]

theorem map_var_negated (ts : List (Term R)) :
    (ts.map Term.negated).map (·.var) = ts.map (·.var) := by
  simp [Term.negated, Function.comp_def]

@[simp] theorem vars_neg (a : Operand R) : a.neg.vars = a.vars := by
  cases a with
  | number k => rfl
  | expression f => exact map_var_negated f.terms

@[simp] theorem isNumber_neg (a : Operand R) : a.neg.isNumber = a.isNumber := by
  cases a <;> rfl

theorem map_var_scale? {f g : LinearFunction R} {k : Number R} (h : f.scale? k = some g) :
    g.terms.map (·.var) = f.terms.map (·.var) := by
  obtain ⟨x, _, h⟩ := Option.bind_eq_some_iff.mp h
  obtain ⟨ts, hts, h⟩ := Option.bind_eq_some_iff.mp h
  obtain rfl := Option.some.inj h
  refine map_eq_map_of_forall₂ ((mapM_eq_some_iff.mp hts).imp fun t u htu => ?_)
  obtain ⟨factor, _, rfl⟩ := Option.map_eq_some_iff.mp htu
  rfl

theorem add?_yields (a b : Operand R) :
    Yields (a.add? b) (a.vars ++ b.vars) (a.isNumber && b.isNumber) := by
  cases a with
  | number j =>
    cases b with
    | number k => exact yields_orOverflow_number _
    | expression f =>
      refine yields_orOverflow_expression fun g hg => ?_
      obtain ⟨x, _, rfl⟩ := Option.map_eq_some_iff.mp hg
      rfl
  | expression f =>
    cases b with
    | number k =>
      refine yields_orOverflow_expression fun g hg => ?_
      obtain ⟨x, _, rfl⟩ := Option.map_eq_some_iff.mp hg
      simp [vars]
    | expression g =>
      exact .inr ⟨expression (f.add g), rfl, by simp [vars, LinearFunction.add], rfl⟩

theorem sub?_yields (a b : Operand R) :
    Yields (a.sub? b) (a.vars ++ b.vars) (a.isNumber && b.isNumber) := by
  cases a with
  | number j =>
    cases b with
    | number k => exact yields_orOverflow_number _
    | expression f =>
      refine yields_orOverflow_expression fun g hg => ?_
      obtain ⟨x, _, rfl⟩ := Option.map_eq_some_iff.mp hg
      exact map_var_negated f.terms
  | expression f =>
    cases b with
    | number k =>
      refine yields_orOverflow_expression fun g hg => ?_
      obtain ⟨x, _, rfl⟩ := Option.map_eq_some_iff.mp hg
      simp [vars]
    | expression g =>
      refine .inr ⟨expression (f.sub g), rfl, ?_, rfl⟩
      simp only [vars, LinearFunction.sub, List.map_append, map_var_negated]

theorem mul?_yields {a b : Operand R} (h : (a.isNumber || b.isNumber) = true) :
    Yields (a.mul? b) (a.vars ++ b.vars) (a.isNumber && b.isNumber) := by
  cases a with
  | number j =>
    cases b with
    | number k => exact yields_orOverflow_number _
    | expression f => exact yields_orOverflow_expression fun g hg => map_var_scale? hg
  | expression f =>
    cases b with
    | number k =>
      refine yields_orOverflow_expression fun g hg => ?_
      simpa [vars] using map_var_scale? hg
    | expression g => cases h

theorem total?_yields (as : List (Operand R)) :
    Yields (orOverflow expression (total? as)) (as.flatMap vars) false := by
  refine yields_orOverflow_expression fun f hf => ?_
  obtain ⟨fs, hfs, rfl⟩ := Option.map_eq_some_iff.mp hf
  have hvars : List.Forall₂ (fun a f => (f.terms.map (·.var)) = a.vars) as fs := by
    refine (mapM_eq_some_iff.mp hfs).imp fun a f haf => ?_
    cases a with
    | number k =>
      obtain ⟨x, _, rfl⟩ := Option.map_eq_some_iff.mp haf
      rfl
    | expression g =>
      obtain rfl := Option.some.inj haf
      rfl
  rw [LinearFunction.total, List.map_flatMap, List.flatMap_def, List.flatMap_def,
    map_eq_map_of_forall₂ hvars]

/-- Adding up from any operand on. -/
theorem foldlM_add?_yields (as : List (Operand R)) : ∀ a : Operand R,
    Yields (as.foldlM add? a) (a.vars ++ as.flatMap vars) (a.isNumber && as.all isNumber) := by
  induction as with
  | nil =>
    intro a
    exact .inr ⟨a, rfl, by simp, by simp⟩
  | cons b as ih =>
    intro a
    rw [List.foldlM_cons]
    refine (add?_yields a b).bind fun c hc => ?_
    have hrest := ih c
    rwa [hc.1, hc.2, List.append_assoc, ← List.flatMap_cons, Bool.and_assoc,
      ← List.all_cons] at hrest

theorem sum?_yields (as : List (Operand R)) :
    Yields (sum? as) (as.flatMap vars) (as.all isNumber) :=
  foldlM_add?_yields as (number (.int 0))

end

end Operand

/-! ## What an answer is worth -/

namespace Number

theorem toRat_plus (k : Number Rat) : k.plus.toRat = k.toRat := by
  cases k with
  | int n => rfl
  | bool b => cases b <;> simp [plus, toRat]
  | real x => rfl

theorem toRat_negated (k : Number Rat) : k.negated.toRat = -k.toRat := by
  cases k with
  | int n => simp [negated, toRat]
  | bool b => cases b <;> simp [negated, toRat]
  | real x => rfl

/-- Subtracting always succeeds and is exact. -/
theorem sub?_exact (a b : Number Rat) : ∃ c, a.sub? b = some c ∧ c.toRat = a.toRat - b.toRat := by
  unfold sub?
  split
  next i j hi hj =>
    refine ⟨.int (i - j), rfl, ?_⟩
    rw [toRat_of_integer? hi, toRat_of_integer? hj]
    exact Rat.intCast_sub i j
  next => exact ⟨.real (a.toRat - b.toRat), by rw [real?_eq, real?_eq]; rfl, rfl⟩

end Number

namespace LinearFunction

section

variable (x : Variable Rat → Rat)

theorem exactValue_toFunction (v : Variable Rat) : v.toFunction.exactValue x = x v := by
  show 0 + (x v * 1 + 0) = x v
  ring

theorem exactValue_append (ts us : List (Term Rat)) (c d : Rat) :
    exactValue ⟨ts ++ us, c + d⟩ x = exactValue ⟨ts, c⟩ x + exactValue ⟨us, d⟩ x := by
  simp only [exactValue, List.map_append, List.sum_append]
  ring

theorem exactValue_neg (f : LinearFunction Rat) : f.neg.exactValue x = -f.exactValue x := by
  obtain ⟨ts, c⟩ := f
  show exactValue ⟨ts.map Term.negated, -c⟩ x = -exactValue ⟨ts, c⟩ x
  induction ts with
  | nil => simp [exactValue]
  | cons t ts ih =>
    simp only [exactValue, List.map_cons, List.sum_cons, Term.negated, Number.toRat_negated] at ih ⊢
    linarith

theorem exactValue_add (f g : LinearFunction Rat) :
    (f.add g).exactValue x = f.exactValue x + g.exactValue x :=
  exactValue_append x f.terms g.terms f.constant g.constant

theorem exactValue_sub (f g : LinearFunction Rat) :
    (f.sub g).exactValue x = f.exactValue x - g.exactValue x := by
  rw [sub_eq_add_neg, ← exactValue_neg, ← exactValue_add]
  exact congrArg (exactValue ⟨_, ·⟩ x) (sub_eq_add_neg f.constant g.constant)

end

/-- Scaling the terms one by one always succeeds and scales their value. -/
theorem mapM_scaled?_exact (k : Rat) (ts : List (Term Rat)) :
    ∃ us, ts.mapM (Term.scaled? (.real k)) = some us ∧
      ∀ x c, exactValue ⟨us, k * c⟩ x = k * exactValue ⟨ts, c⟩ x := by
  induction ts with
  | nil => exact ⟨[], rfl, fun x c => by simp [exactValue]⟩
  | cons t ts ih =>
    obtain ⟨factor, hfactor, hval⟩ := Number.mul?_exact (.real k) t.factor
    obtain ⟨us, hus, hvalue⟩ := ih
    refine ⟨⟨t.var, factor⟩ :: us, ?_, fun x c => ?_⟩
    · simp [List.mapM_cons, Term.scaled?, hfactor, hus]
    · have hrest := hvalue x c
      have hscaled : factor.toRat = k * t.factor.toRat := hval
      simp only [exactValue, List.map_cons, List.sum_cons, hscaled] at hrest ⊢
      linarith

theorem scale?_exact (f : LinearFunction Rat) (k : Number Rat) :
    ∃ g, f.scale? k = some g ∧ ∀ x, g.exactValue x = k.toRat * f.exactValue x := by
  obtain ⟨us, hus, hvalue⟩ := mapM_scaled?_exact k.toRat f.terms
  refine ⟨⟨us, k.toRat * f.constant⟩, ?_, fun x => hvalue x f.constant⟩
  simp [scale?, Number.real?_eq, hus]

/-- Joining functions adds their values to the constant one starts from. -/
theorem exactValue_flatMap (x : Variable Rat → Rat) (fs : List (LinearFunction Rat)) (c : Rat) :
    exactValue ⟨fs.flatMap (·.terms), fs.foldl (fun c f => c + f.constant) c⟩ x =
      c + (fs.map (·.exactValue x)).sum := by
  induction fs generalizing c with
  | nil => simp [exactValue]
  | cons f fs ih =>
    have hrest := ih (c + f.constant)
    simp only [exactValue, List.flatMap_cons, List.foldl_cons, List.map_append, List.sum_append,
      List.map_cons, List.sum_cons] at hrest ⊢
    linarith

theorem exactValue_total (x : Variable Rat → Rat) (fs : List (LinearFunction Rat)) :
    (total fs).exactValue x = (fs.map (·.exactValue x)).sum := by
  rw [← zero_add (List.sum _)]
  exact exactValue_flatMap x fs 0

end LinearFunction

namespace Operand

/-- An answer is worth what is said, under every choice of values. -/
def IsWorth (answer : Except OperatorFault (Operand Rat)) (w : (Variable Rat → Rat) → Rat) : Prop :=
  ∃ a, answer = .ok a ∧ ∀ x, a.exactValue x = w x

theorem exactValue_plus (x : Variable Rat → Rat) (a : Operand Rat) :
    a.plus.exactValue x = a.exactValue x := by
  cases a with
  | number k => exact Number.toRat_plus k
  | expression f => rfl

theorem exactValue_neg (x : Variable Rat → Rat) (a : Operand Rat) :
    a.neg.exactValue x = -a.exactValue x := by
  cases a with
  | number k => exact Number.toRat_negated k
  | expression f => exact LinearFunction.exactValue_neg x f

theorem add?_isWorth (a b : Operand Rat) :
    IsWorth (a.add? b) fun x => a.exactValue x + b.exactValue x := by
  cases a with
  | number j =>
    cases b with
    | number k =>
      obtain ⟨c, hc, hval⟩ := Number.add?_exact j k
      exact ⟨number c, by rw [add?, hc]; rfl, fun _ => hval⟩
    | expression f =>
      refine ⟨expression ⟨f.terms, j.toRat + f.constant⟩, ?_, fun x => ?_⟩
      · rw [add?, LinearFunction.numberAdd?, Number.real?_eq]
        rfl
      · simp only [exactValue, LinearFunction.exactValue]
        ring
  | expression f =>
    cases b with
    | number k =>
      refine ⟨expression ⟨f.terms, f.constant + k.toRat⟩, ?_, fun x => ?_⟩
      · rw [add?, LinearFunction.addNumber?, Number.real?_eq]
        rfl
      · simp only [exactValue, LinearFunction.exactValue]
        ring
    | expression g => exact ⟨_, rfl, fun x => LinearFunction.exactValue_add x f g⟩

theorem sub?_isWorth (a b : Operand Rat) :
    IsWorth (a.sub? b) fun x => a.exactValue x - b.exactValue x := by
  cases a with
  | number j =>
    cases b with
    | number k =>
      obtain ⟨c, hc, hval⟩ := Number.sub?_exact j k
      exact ⟨number c, by rw [sub?, hc]; rfl, fun _ => hval⟩
    | expression f =>
      -- the function is negated, and the number added to it
      refine ⟨expression ⟨f.neg.terms, f.neg.constant + j.toRat⟩, ?_, fun x => ?_⟩
      · rw [sub?, LinearFunction.numberSub?, LinearFunction.addNumber?, Number.real?_eq]
        rfl
      · have hneg := LinearFunction.exactValue_neg x f
        simp only [exactValue, LinearFunction.exactValue, Number.toRat] at hneg ⊢
        linarith
  | expression f =>
    cases b with
    | number k =>
      refine ⟨expression ⟨f.terms, f.constant - k.toRat⟩, ?_, fun x => ?_⟩
      · rw [sub?, LinearFunction.subNumber?, Number.real?_eq]
        rfl
      · simp only [exactValue, LinearFunction.exactValue]
        ring
    | expression g => exact ⟨_, rfl, fun x => LinearFunction.exactValue_sub x f g⟩

theorem mul?_isWorth {a b : Operand Rat} (h : (a.isNumber || b.isNumber) = true) :
    IsWorth (a.mul? b) fun x => a.exactValue x * b.exactValue x := by
  cases a with
  | number j =>
    cases b with
    | number k =>
      obtain ⟨c, hc, hval⟩ := Number.mul?_exact j k
      exact ⟨number c, by rw [mul?, hc]; rfl, fun _ => hval⟩
    | expression f =>
      obtain ⟨g, hg, hval⟩ := f.scale?_exact j
      exact ⟨expression g, by rw [mul?, hg]; rfl, hval⟩
  | expression f =>
    cases b with
    | number k =>
      obtain ⟨g, hg, hval⟩ := f.scale?_exact k
      refine ⟨expression g, by rw [mul?, hg]; rfl, fun x => ?_⟩
      exact (hval x).trans (mul_comm _ _)
    | expression g => cases h

theorem toFunction?_exact (a : Operand Rat) :
    ∃ f, a.toFunction? = some f ∧ ∀ x, f.exactValue x = a.exactValue x := by
  cases a with
  | number k =>
    refine ⟨⟨[], k.toRat⟩, ?_, fun x => add_zero k.toRat⟩
    rw [toFunction?, LinearFunction.ofNumber?, Number.real?_eq]
    rfl
  | expression f => exact ⟨f, rfl, fun _ => rfl⟩

theorem total?_isWorth (as : List (Operand Rat)) :
    IsWorth (orOverflow expression (total? as)) fun x => (as.map (·.exactValue x)).sum := by
  choose toFunction hto hval using toFunction?_exact
  have hall : as.mapM toFunction? = some (as.map toFunction) := by
    rw [mapM_eq_some_iff, List.forall₂_map_right_iff, List.forall₂_same]
    exact fun a _ => hto a
  refine ⟨expression (LinearFunction.total (as.map toFunction)), ?_, fun x => ?_⟩
  · rw [total?, hall]
    rfl
  · refine (LinearFunction.exactValue_total x _).trans ?_
    simp only [List.map_map, Function.comp_def, hval]

/-- Adding up from any operand on. -/
theorem foldlM_add?_isWorth (as : List (Operand Rat)) : ∀ a : Operand Rat,
    IsWorth (as.foldlM add? a) fun x => a.exactValue x + (as.map (·.exactValue x)).sum := by
  induction as with
  | nil =>
    intro a
    exact ⟨a, rfl, fun x => by simp⟩
  | cons b as ih =>
    intro a
    obtain ⟨c, hc, hcval⟩ := add?_isWorth a b
    obtain ⟨d, hd, hdval⟩ := ih c
    refine ⟨d, by rw [List.foldlM_cons, hc]; exact hd, fun x => ?_⟩
    simp only [hdval, hcval, List.map_cons, List.sum_cons, add_assoc]

theorem sum?_isWorth (as : List (Operand Rat)) :
    IsWorth (sum? as) fun x => (as.map (·.exactValue x)).sum := by
  obtain ⟨a, ha, hval⟩ := foldlM_add?_isWorth as (number (.int 0))
  refine ⟨a, ha, fun x => (hval x).trans ?_⟩
  simp [exactValue, Number.toRat]

end Operand

end LinearProgram
