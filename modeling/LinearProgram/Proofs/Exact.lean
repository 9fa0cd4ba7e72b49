import Mathlib
import LinearProgram.Proofs.NormalForm
/-!
# Exact numbers

Over the rationals nothing rounds and nothing fails.  `Number.toRat` is the value of
a number, and `LinearFunction.exactValue` the value of a function under values of the
variables themselves; `value?_eq` says that a valuation of names gives the same.

`exactValue_of_normalized?` is the law of the normal form: merging changes no value.
Values are summed by variable there, and a variable is not told by its name, so two
variables may share one.
-/
namespace LinearProgram

/-! ## Numbers -/

namespace Number

/-- The exact value of a number. -/
def toRat : Number Rat → Rat
  | int n => n
  | bool b => if b then 1 else 0
  | real x => x

theorem real?_eq (k : Number Rat) : k.real? = some k.toRat := by
  cases k with
  | int n => rfl
  | bool b => cases b <;> rfl
  | real x => rfl

theorem toRat_of_integer? {k : Number Rat} {n : Int} (h : k.integer? = some n) :
    k.toRat = n := by
  cases k with
  | int m =>
    obtain rfl := Option.some.inj h
    rfl
  | bool b =>
    obtain rfl := Option.some.inj h
    cases b <;> simp [toRat]
  | real x => cases h

theorem isZero_eq (k : Number Rat) : k.isZero = decide (k.toRat = 0) := by
  cases k with
  | int n => simp [isZero, toRat]
  | bool b => cases b <;> simp [isZero, toRat]
  | real x => exact beq_eq_decide x 0

/-- Adding always succeeds and is exact. -/
theorem add?_exact (a b : Number Rat) : ∃ c, a.add? b = some c ∧ c.toRat = a.toRat + b.toRat := by
  unfold add?
  split
  next i j hi hj =>
    refine ⟨.int (i + j), rfl, ?_⟩
    rw [toRat_of_integer? hi, toRat_of_integer? hj]
    exact Rat.intCast_add i j
  next => exact ⟨.real (a.toRat + b.toRat), by rw [real?_eq, real?_eq]; rfl, rfl⟩

/-- Multiplying always succeeds and is exact. -/
theorem mul?_exact (a b : Number Rat) : ∃ c, a.mul? b = some c ∧ c.toRat = a.toRat * b.toRat := by
  unfold mul?
  split
  next i j hi hj =>
    refine ⟨.int (i * j), rfl, ?_⟩
    rw [toRat_of_integer? hi, toRat_of_integer? hj]
    exact Rat.intCast_mul i j
  next => exact ⟨.real (a.toRat * b.toRat), by rw [real?_eq, real?_eq]; rfl, rfl⟩

/-- Summing from any number on is exact. -/
theorem foldlM_add?_exact : ∀ (xs : List (Number Rat)) (a : Number Rat),
    ∃ c, xs.foldlM add? a = some c ∧ c.toRat = a.toRat + (xs.map toRat).sum
  | [], a => ⟨a, rfl, by simp⟩
  | x :: xs, a => by
    obtain ⟨b, hb, hbval⟩ := add?_exact a x
    obtain ⟨c, hc, hcval⟩ := foldlM_add?_exact xs b
    refine ⟨c, ?_, ?_⟩
    · rw [List.foldlM_cons, hb]
      exact hc
    · rw [hcval, hbval, List.map_cons, List.sum_cons, add_assoc]

theorem sum?_exact (xs : List (Number Rat)) :
    ∃ c, sum? xs = some c ∧ c.toRat = (xs.map toRat).sum := by
  obtain ⟨c, hc, hval⟩ := foldlM_add?_exact xs (.int 0)
  exact ⟨c, hc, by simpa [toRat] using hval⟩

end Number

/-! ## Functions -/

namespace LinearFunction

/-- The exact value of a function under values of the variables. -/
def exactValue (f : LinearFunction Rat) (x : Variable Rat → Rat) : Rat :=
  f.constant + (f.terms.map fun t => x t.var * t.factor.toRat).sum

/-- The value of a function depends on the values of its variables only. -/
theorem exactValue_congr {f : LinearFunction Rat} {x y : Variable Rat → Rat}
    (h : ∀ t ∈ f.terms, x t.var = y t.var) : f.exactValue x = f.exactValue y := by
  have hterms : (f.terms.map fun t => x t.var * t.factor.toRat)
      = f.terms.map fun t => y t.var * t.factor.toRat :=
    List.map_congr_left fun t ht => by rw [h t ht]
  rw [exactValue, exactValue, hterms]

/-- Evaluation by names always succeeds, and is exact. -/
theorem value?_eq (f : LinearFunction Rat) (values : Text → Number Rat) :
    f.value? values = some (f.exactValue fun v => (values v.name).toRat) := by
  obtain ⟨ts, c⟩ := f
  simp only [value?, exactValue]
  induction ts generalizing c with
  | nil => simp
  | cons t ts ih =>
    obtain ⟨k, hk, hval⟩ := Number.mul?_exact (values t.var.name) t.factor
    have hstep : (do return c + (← (← t.value? values).real?)) =
        some (c + (values t.var.name).toRat * t.factor.toRat) := by
      simp only [Term.value?, hk]
      rw [← hval]
      simp [Number.real?_eq]
    rw [List.foldlM_cons, hstep]
    refine (ih _).trans ?_
    rw [List.map_cons, List.sum_cons, add_assoc]

/-- Combining the factors of a group always succeeds and gives their sum. -/
theorem combined?_exact (xs : List (Number Rat)) :
    ∃ c, combined? xs = some c ∧ c.toRat = (xs.map Number.toRat).sum := by
  match xs with
  | [] => exact Number.sum?_exact []
  | [x] => exact ⟨x, rfl, by simp⟩
  | x :: y :: xs => exact Number.sum?_exact (x :: y :: xs)

/-- Over the rationals every function has a normal form. -/
theorem exists_normalized? (f : LinearFunction Rat) : ∃ g, f.normalized? = some g := by
  refine exists_normalized?_of_combined fun p _ => ?_
  obtain ⟨k, hk, _⟩ := combined?_exact p.2
  exact ⟨k, hk⟩

/-- Terms with factor zero add nothing. -/
theorem sum_filter_isZero (x : Variable Rat → Rat) (ts : List (Term Rat)) :
    ((ts.filter (!·.factor.isZero)).map fun t => x t.var * t.factor.toRat).sum
      = (ts.map fun t => x t.var * t.factor.toRat).sum := by
  induction ts with
  | nil => rfl
  | cons t ts ih =>
    by_cases ht : t.factor.toRat = 0
    · have hzero : t.factor.isZero = true := by rw [Number.isZero_eq]; simpa using ht
      simp [hzero, ht, ih]
    · have hzero : t.factor.isZero = false := by rw [Number.isZero_eq]; simpa using ht
      simp [hzero, ih]

/-- **Normalising changes no value**, whatever values the variables have. -/
theorem exactValue_of_normalized? {f g : LinearFunction Rat} (h : f.normalized? = some g)
    (x : Variable Rat → Rat) : g.exactValue x = f.exactValue x := by
  rw [normalized?_eq_merged?] at h
  obtain ⟨ts, hts, rfl⟩ := merged?_eq_some_iff.mp h
  have hterms : (ts.map fun t => x t.var * t.factor.toRat)
      = f.groups.map fun p => (p.2.map fun k => x p.1 * k.toRat).sum := by
    refine map_eq_map_of_forall₂ (hts.imp fun p t hpt => ?_)
    obtain ⟨c, hc, hval⟩ := combined?_exact p.2
    obtain rfl := Option.some.inj (hc.symm.trans hpt.2)
    rw [hpt.1, hval, List.sum_map_mul_left]
  simp only [exactValue]
  rw [sum_filter_isZero, hterms, groups,
    sum_group (fun (v : Variable Rat) (k : Number Rat) => x v * k.toRat), List.map_map,
    ← sum_filter_isZero x f.terms]
  rfl

end LinearFunction

/-! ## Constraints and models -/

/-- What a comparison of exact reals says. -/
def Comparison.Relates (c : Comparison) (x y : Rat) : Prop :=
  match c with
  | .lte => x ≤ y
  | .eq => x = y
  | .gte => y ≤ x

theorem Comparison.holds_iff (c : Comparison) (x y : Rat) :
    c.holds x y = true ↔ c.Relates x y := by
  cases c with
  | lte => exact decide_eq_true_iff
  | eq => exact beq_iff_eq
  | gte => exact decide_eq_true_iff

/-- Checking a constraint always succeeds, and compares the exact values. -/
theorem Constraint.holds?_eq (c : Constraint Rat) (values : Text → Number Rat) :
    c.holds? values = some (c.comparison.holds
      (c.function.exactValue fun v => (values v.name).toRat) c.constant) := by
  rw [holds?, LinearFunction.value?_eq]
  rfl

/-- Over the rationals every model has a normal form. -/
theorem Model.exists_normalizes (m : Model Rat) : ∃ n, m.Normalizes n :=
  exists_normalizes_of_functions fun f _ => f.exists_normalized?

end LinearProgram
