import Mathlib
import LinearProgram.Proofs.Lists
import LinearProgram.Session.Action
/-!
# Two ways to add up a list

A session adds up the items of a list one after another, from the integer 0 on, or turns each
into a function and joins them.  For a list that starts with an expression both give the same
function, with the same terms and the same constant to the last bit, or both fail because an
integer is too large.

## How the proof goes

What an item adds is a list of terms and a constant (`addend?`), and an integer that is too large
adds nothing.  `Refines` relates an action to such an answer, whatever objects it makes on
the way; the rules for actions one after another carry it from the items to the list.  Each of
the two ways then refines the same fold over the addends, so the additions of reals are the same
ones in the same order, and no law of them is used.
-/
namespace LinearProgram.Session

/-! ## Actions and their answers -/

/-- What an action ended with stands in relation to an answer that is known, or is the failure by
an integer that is too large if there is none. -/
def Meets {α β : Type} (rel : α → β → Prop) : Except Fault (α × Nat) → Option β → Prop
  | .ok (a, _), some b => rel a b
  | .error e, none => e = .overflow
  | _, _ => False

/-- An action meets an answer, whatever number the next object has. -/
def Refines {α β : Type} (rel : α → β → Prop) (act : Making α) (answer? : Option β) : Prop :=
  ∀ n, Meets rel (act.run n) answer?

section

variable {α β γ δ : Type} {act : Making α} {answer? : Option β} {rel : α → β → Prop}
  {rel' : γ → δ → Prop}

theorem refines_pure {a : α} {b : β} (h : rel a b) : Refines rel (pure a) (some b) :=
  fun _ => h

theorem refines_bind {next : α → Making γ} {next? : β → Option δ} (h : Refines rel act answer?)
    (hnext : ∀ a b, rel a b → Refines rel' (next a) (next? b)) :
    Refines rel' (act >>= next) (answer?.bind next?) := by
  intro n
  have hn := h n
  rw [StateT.run_bind]
  cases hrun : act.run n with
  | error e =>
    rw [hrun] at hn
    cases answer? with
    | none => exact hn
    | some b => exact hn.elim
  | ok p =>
    rw [hrun] at hn
    cases answer? with
    | none => exact hn.elim
    | some b => exact hnext p.1 b hn p.2

theorem refines_map {f : α → γ} {rel' : γ → β → Prop} (h : Refines rel act answer?)
    (hmap : ∀ a b, rel a b → rel' (f a) b) : Refines rel' (do return f (← act)) answer? := by
  rw [← Option.bind_fun_some answer?]
  exact refines_bind h fun a b hab => refines_pure (hmap a b hab)

/-- The items of a list one after another. -/
theorem refines_mapM {f : γ → Making α} {g : γ → Option β} :
    ∀ {vs : List γ}, (∀ v ∈ vs, Refines rel (f v) (g v)) →
      Refines (List.Forall₂ rel) (vs.mapM f) (vs.mapM g)
  | [], _ => refines_pure .nil
  | v :: vs, h => by
    obtain ⟨hv, hvs⟩ := List.forall_mem_cons.mp h
    rw [List.mapM_cons, List.mapM_cons]
    exact refines_bind hv fun a b hab =>
      refines_bind (refines_mapM hvs) fun as bs has => refines_pure (.cons hab has)

theorem refines_foldlM {f : α → γ → Making α} {g : β → γ → Option β} :
    ∀ {vs : List γ} {a : α} {b : β}, rel a b →
      (∀ v ∈ vs, ∀ a b, rel a b → Refines rel (f a v) (g b v)) →
      Refines rel (vs.foldlM f a) (vs.foldlM g b)
  | [], _, _, hab, _ => refines_pure hab
  | v :: vs, a, b, hab, h => by
    obtain ⟨hv, hvs⟩ := List.forall_mem_cons.mp h
    rw [List.foldlM_cons, List.foldlM_cons]
    exact refines_bind (hv a b hab) fun a b hab => refines_foldlM hab hvs

theorem run_of_refines_none (h : Refines rel act none) (n : Nat) :
    act.run n = .error .overflow := by
  have hn := h n
  cases hrun : act.run n with
  | error e =>
    rw [hrun] at hn
    exact congrArg _ hn
  | ok p =>
    rw [hrun] at hn
    exact hn.elim

theorem run_of_refines_some {b : β} (h : Refines rel act (some b)) (n : Nat) :
    ∃ a m, act.run n = .ok (a, m) ∧ rel a b := by
  have hn := h n
  cases hrun : act.run n with
  | error e =>
    rw [hrun] at hn
    exact hn.elim
  | ok p =>
    rw [hrun] at hn
    exact ⟨p.1, p.2, rfl, hn⟩

theorem refines_orOverflow (k? : Option α) : Refines Eq (orOverflow k?) k? := by
  intro n
  cases k? <;> rfl

end

/-! ## What an item adds -/

/-- Terms and a constant. -/
structure Addend where
  terms : List Value
  constant : Float

namespace Addend

/-- Nothing to add. -/
def zero : Addend :=
  ⟨[], 0⟩

/-- The terms one after another, and the sum of the constants. -/
def add (a b : Addend) : Addend :=
  ⟨a.terms ++ b.terms, a.constant + b.constant⟩

end Addend

/-- A term without the number that tells it from others with the same content. -/
def Value.content : Value → Value
  | term _ x k => term 0 x k
  | v => v

/-- What a function adds. -/
def FunctionObject.addend (f : FunctionObject) : Addend :=
  ⟨f.terms.map Value.content, f.constant.value⟩

/-- What an item of a list adds; none if it is an integer too large to be a real, or nothing that
can be added. -/
def Value.addend? : Value → Option Addend
  | number _ k => k.real?.map (⟨[], ·⟩)
  | .variable id name d lo hi =>
    some ⟨[term 0 (.variable id name d lo hi) (.ofReal ⟨.shared, 1⟩)], 0⟩
  | function _ _ ts c => some ⟨ts.map content, c.value⟩
  | _ => none

/-- A function object that adds a given addend. -/
def HasAddend (f : FunctionObject) (a : Addend) : Prop :=
  f.addend = a

/-- A value that is a function with a given addend. -/
def IsFunctionOf (v : Value) (a : Addend) : Prop :=
  ∃ f : FunctionObject, v = f.toValue ∧ f.addend = a

/-- A side of an operator that is a function with a given addend. -/
def IsSideOf (s : Side) (a : Addend) : Prop :=
  ∃ f : FunctionObject, s = .expression f ∧ f.addend = a

theorem refines_newReal (x : Float) :
    Refines (fun (c : RealObject) y => c.value = y) (newReal x) (some x) :=
  fun _ => rfl

theorem refines_newFunctionOf (ts : List Value) (tuple? : Option Mark) (c : RealObject) :
    Refines HasAddend (newFunctionOf ts tuple? c) (some ⟨ts.map Value.content, c.value⟩) := by
  intro n
  unfold newFunctionOf tupleMark
  cases ts.isEmpty with
  | true => rfl
  | false => cases tuple? <;> rfl

/-- The function of an unknown has one term, with the factor 1, and no constant. -/
theorem refines_functionOf (x : Value) : Refines HasAddend (functionOf x)
    (some ⟨[.term 0 x (.ofReal ⟨.shared, 1⟩)], 0⟩) :=
  fun _ => rfl

/-- A new function with a new constant. -/
theorem refines_makeFunction (ts : List Value) (tuple? : Option Mark) (x : Float) :
    Refines IsFunctionOf (do
      let c ← newReal x
      return (← newFunctionOf ts tuple? c).toValue) (some ⟨ts.map Value.content, x⟩) := by
  have hfunction : ∀ (c : RealObject) y, c.value = y →
      Refines IsFunctionOf (do return (← newFunctionOf ts tuple? c).toValue)
        (some ⟨ts.map Value.content, y⟩) := by
    rintro c _ rfl
    exact refines_map (refines_newFunctionOf ts tuple? c) fun f a hf => ⟨f, rfl, hf⟩
  exact refines_bind (refines_newReal x) hfunction

/-- A new function whose constant a number is needed for. -/
theorem refines_makeFunction_number (ts : List Value) (tuple? : Option Mark) (k : Number Float)
    (constant : Float → Float) :
    Refines IsFunctionOf (do
      let c ← newReal (constant (← orOverflow k.real?))
      return (← newFunctionOf ts tuple? c).toValue)
      (k.real?.map fun x => ⟨ts.map Value.content, constant x⟩) := by
  have hmake : ∀ x y : Float, x = y → Refines IsFunctionOf (do
      let c ← newReal (constant x)
      return (← newFunctionOf ts tuple? c).toValue) (some ⟨ts.map Value.content, constant y⟩) := by
    rintro x _ rfl
    exact refines_makeFunction ts tuple? (constant x)
  rw [Option.map_eq_bind]
  exact refines_bind (refines_orOverflow k.real?) hmake

/-- The value of an operator that takes over terms only has these terms. -/
theorem refines_valueOf (f : LinearFunction Float) (ts : List Value) (tuple? : Option Mark) :
    Refines IsFunctionOf (valueOf ⟨ts, [], tuple?, none⟩ (.ok (.expression f)))
      (some ⟨ts.map Value.content, f.constant⟩) := by
  have hrun : valueOf ⟨ts, [], tuple?, none⟩ (.ok (.expression f)) = do
      let c ← newReal f.constant
      return (← newFunctionOf ts tuple? c).toValue := by
    simp [valueOf, newFunction]
  rw [hrun]
  exact refines_makeFunction ts tuple? f.constant

theorem refines_valueOf_number (us : List (Term Float)) (ts : List Value) (tuple? : Option Mark)
    (k : Number Float) (constant : Float → Float) :
    Refines IsFunctionOf (valueOf ⟨ts, [], tuple?, none⟩
      (Operand.orOverflow .expression (k.real?.map fun x => ⟨us, constant x⟩)))
      (k.real?.map fun x => ⟨ts.map Value.content, constant x⟩) := by
  cases k.real? with
  | none => exact fun _ => rfl
  | some x => exact refines_valueOf ⟨us, constant x⟩ ts tuple?

/-! ## One sum -/

/-- An expression as a side of an operator is a function. -/
theorem refines_side {v : Value} (hv : v.isExpression = true) :
    Refines IsSideOf v.side v.addend? := by
  cases v with
  | function serial m ts c => exact refines_pure ⟨_, rfl, rfl⟩
  | «variable» id name d lo hi =>
    exact refines_map (refines_functionOf _) fun f a hf => ⟨f, rfl, hf⟩
  | _ => cases hv

/-- The operator on two sides. -/
def Arithmetic.onSides (op : Arithmetic) (x y : Side) : Making Value :=
  match x.operand?, y.operand? with
  | some p, some q => valueOf (op.kept x y) (op.onOperands p q)
  | _, _ => op.onTerms x y

theorem operand?_expression (f : FunctionObject) :
    (Side.expression f).operand? = f.function?.map .expression := rfl

theorem FunctionObject.constant_of_function? {f : FunctionObject} {p : LinearFunction Float}
    (h : f.function? = some p) : p.constant = f.constant.value := by
  obtain ⟨ts, _, rfl⟩ := Option.map_eq_some_iff.mp h
  rfl

section

variable (f g : FunctionObject) (k : Number Float)

/-- **Expressions are added by their terms and constants**, whatever their terms are. -/
theorem refines_onSides_expressions :
    Refines IsFunctionOf (Arithmetic.add.onSides (.expression f) (.expression g))
      (some (f.addend.add g.addend)) := by
  have hterms : f.addend.add g.addend =
      ⟨(f.terms ++ g.terms).map Value.content, f.constant.value + g.constant.value⟩ := by
    simp [FunctionObject.addend, Addend.add]
  rw [hterms, Arithmetic.onSides, operand?_expression, operand?_expression]
  cases hf : f.function? with
  | none => exact refines_makeFunction _ _ _
  | some p =>
    cases hg : g.function? with
    | none => exact refines_makeFunction _ _ _
    | some q =>
      rw [← FunctionObject.constant_of_function? hf, ← FunctionObject.constant_of_function? hg]
      exact refines_valueOf (p.add q) (f.terms ++ g.terms) _

/-- A number is added to the constant, from the right. -/
theorem refines_onSides_number :
    Refines IsFunctionOf (Arithmetic.add.onSides (.expression f) (.number k))
      (k.real?.map fun x => f.addend.add ⟨[], x⟩) := by
  have hterms : ∀ x : Float, f.addend.add ⟨[], x⟩ =
      ⟨f.terms.map Value.content, f.constant.value + x⟩ := by
    simp [FunctionObject.addend, Addend.add]
  simp only [hterms]
  rw [Arithmetic.onSides, operand?_expression]
  cases hf : f.function? with
  | none => exact refines_makeFunction_number _ _ k (f.constant.value + ·)
  | some p =>
    rw [← FunctionObject.constant_of_function? hf]
    exact refines_valueOf_number p.terms _ _ k (p.constant + ·)

/-- A number is added to the constant, from the left. -/
theorem refines_onSides_number_left :
    Refines IsFunctionOf (Arithmetic.add.onSides (.number k) (.expression f))
      (k.real?.map fun x => (⟨[], x⟩ : Addend).add f.addend) := by
  have hterms : ∀ x : Float, (⟨[], x⟩ : Addend).add f.addend =
      ⟨f.terms.map Value.content, x + f.constant.value⟩ := by
    simp [FunctionObject.addend, Addend.add]
  simp only [hterms]
  rw [Arithmetic.onSides, operand?_expression]
  cases hf : f.function? with
  | none => exact refines_makeFunction_number _ _ k (· + f.constant.value)
  | some p =>
    rw [← FunctionObject.constant_of_function? hf]
    exact refines_valueOf_number p.terms _ _ k (· + p.constant)

end

/-- Whether a value can be added to an expression: it is an expression or a number. -/
def Value.isItem (v : Value) : Bool :=
  v.isExpression || v.number?.isSome

theorem Value.add_eq {a : Value} (ha : a.isItem = true) (b : Value) :
    a.add b = Arithmetic.add.apply a b := by
  have htext : a.text? = none := by
    cases a <;> first | rfl | cases ha
  unfold Value.add
  split
  · cases ha
  · cases ha
  · rw [htext]

/-- **An item is added to a function** by its terms and its constant. -/
theorem refines_add {v a : Value} {b : Addend} (ha : IsFunctionOf a b) (hv : v.isItem = true) :
    Refines IsFunctionOf (a.add v) (v.addend?.map b.add) := by
  obtain ⟨f, rfl, rfl⟩ := ha
  have hside : Arithmetic.add.apply f.toValue v =
      v.side >>= Arithmetic.add.onSides (.expression f) := rfl
  rw [Value.add_eq rfl, hside]
  by_cases hexpression : v.isExpression = true
  · have hadd : ∀ s c, IsSideOf s c → Refines IsFunctionOf
        (Arithmetic.add.onSides (.expression f) s) (some (f.addend.add c)) := by
      rintro _ _ ⟨g, rfl, rfl⟩
      exact refines_onSides_expressions f g
    rw [Option.map_eq_bind]
    exact refines_bind (refines_side hexpression) hadd
  · obtain ⟨k, hk⟩ : ∃ k, v.number? = some k := by
      rw [Value.isItem, Bool.or_eq_true] at hv
      exact Option.isSome_iff_exists.mp (hv.resolve_left hexpression)
    cases v with
    | number m j =>
      have haddend : (Value.number m j).addend?.map f.addend.add =
          j.real?.map fun x => f.addend.add ⟨[], x⟩ := by
        simp [Value.addend?, Function.comp_def]
      rw [haddend]
      exact refines_onSides_number f j
    | _ => cases hk

/-- An expression is added to the integer 0 as its constant to the real 0. -/
theorem refines_zero_add {v : Value} (hv : v.isExpression = true) :
    Refines IsFunctionOf ((Value.number .shared (.int 0)).add v)
      (v.addend?.map Addend.zero.add) := by
  have hside : Arithmetic.add.apply (.number .shared (.int 0)) v =
      v.side >>= Arithmetic.add.onSides (.number (.int 0)) := rfl
  have hzero : (Number.int 0 : Number Float).real? = some 0 := by decide +kernel
  have hadd : ∀ s c, IsSideOf s c → Refines IsFunctionOf
      (Arithmetic.add.onSides (.number (.int 0)) s) (some (Addend.zero.add c)) := by
    rintro _ _ ⟨g, rfl, rfl⟩
    have hleft := refines_onSides_number_left g (.int 0)
    rwa [hzero] at hleft
  rw [Value.add_eq rfl, hside, Option.map_eq_bind]
  exact refines_bind (refines_side hv) hadd

/-- An item becomes a function with its terms and its constant. -/
theorem refines_asFunction {v : Value} (hv : v.isItem = true) :
    Refines HasAddend v.asFunction v.addend? := by
  cases v with
  | function serial m ts c => exact refines_pure rfl
  | «variable» id name d lo hi => exact refines_functionOf _
  | number m k =>
    have hrounded : ∀ x? : Option Float, Refines HasAddend (do
        let f ← orOverflow (x?.map fun x => (⟨[], x⟩ : LinearFunction Float))
        newFunction f ⟨[], [], none, none⟩) (x?.map (⟨[], ·⟩)) := by
      intro x? n
      cases x? <;> rfl
    cases k with
    | int n => exact hrounded _
    | bool b => exact hrounded _
    | real x => exact fun _ => rfl
  | _ => cases hv

/-! ## The sum of a list -/

/-- What items add one after another. -/
def Addend.sum? (vs : List Value) : Option Addend :=
  (vs.mapM Value.addend?).map (·.foldl Addend.add Addend.zero)

/-- Adding one after another is adding all, if each adds something. -/
theorem foldlM_addend? (vs : List Value) (a : Addend) :
    vs.foldlM (fun b v => v.addend?.map b.add) a =
      (vs.mapM Value.addend?).map (·.foldl Addend.add a) := by
  induction vs generalizing a with
  | nil => rfl
  | cons v vs ih =>
    rw [List.foldlM_cons, List.mapM_cons]
    cases v.addend? with
    | none => rfl
    | some b =>
      refine (ih (a.add b)).trans ?_
      cases vs.mapM Value.addend? <;> rfl

/-- The addends of functions one after another: all terms, and the constants from left to right. -/
theorem foldl_addend (fs : List FunctionObject) (a : Addend) :
    (fs.map FunctionObject.addend).foldl Addend.add a =
      ⟨a.terms ++ (fs.flatMap (·.terms)).map Value.content,
        fs.foldl (fun x f => x + f.constant.value) a.constant⟩ := by
  induction fs generalizing a with
  | nil => simp
  | cons f fs ih =>
    rw [List.map_cons, List.foldl_cons, ih]
    simp [Addend.add, FunctionObject.addend]

/-- The constants of functions are those of the functions without identities. -/
theorem foldl_constant_of_mapM {fs : List FunctionObject} {gs : List (LinearFunction Float)}
    (h : fs.mapM FunctionObject.function? = some gs) :
    (LinearFunction.total gs).constant = fs.foldl (fun x f => x + f.constant.value) 0 := by
  have hfold : ∀ x : Float, gs.foldl (fun c g => c + g.constant) x =
      fs.foldl (fun x f => x + f.constant.value) x := by
    induction mapM_eq_some_iff.mp h with
    | nil => exact fun _ => rfl
    | cons hfg hrest ih =>
      intro x
      rw [List.foldl_cons, List.foldl_cons, FunctionObject.constant_of_function? hfg]
      exact ih (mapM_eq_some_iff.mpr hrest) _
  exact hfold 0

/-- Functions joined to one. -/
def joined (fs : List FunctionObject) : Making Value :=
  match fs.mapM FunctionObject.function? with
  | some gs => do
    return (← newFunction (LinearFunction.total gs) ⟨fs.flatMap (·.terms), [], none,
      if fs.isEmpty then some RealObject.zero else none⟩).toValue
  | none => do
    let c ← newReal (fs.foldl (fun x f => x + f.constant.value) 0)
    return (← newFunctionOf (fs.flatMap (·.terms)) none c).toValue

theorem total_eq (serial : Nat) (vs : List Value) :
    Value.total (.list serial vs) = vs.mapM Value.asFunction >>= joined := rfl

/-- Functions are joined by their addends, whatever their terms are. -/
theorem refines_joined (fs : List FunctionObject) : Refines IsFunctionOf (joined fs)
    (some ((fs.map FunctionObject.addend).foldl Addend.add Addend.zero)) := by
  by_cases hne : fs = []
  · subst hne
    exact fun _ => ⟨_, rfl, rfl⟩
  · have hconstant : (if fs.isEmpty then some RealObject.zero else none) = none :=
      if_neg (by simpa using hne)
    rw [foldl_addend, joined, hconstant]
    cases hgs : fs.mapM FunctionObject.function? with
    | none => exact refines_makeFunction _ none _
    | some gs =>
      have hvalue := refines_valueOf (LinearFunction.total gs) (fs.flatMap (·.terms)) none
      rw [foldl_constant_of_mapM hgs] at hvalue
      exact hvalue

/-- **Joining the items as functions refines the fold over their addends.** -/
theorem refines_total {vs : List Value} (hvs : ∀ w ∈ vs, w.isItem = true) (serial : Nat) :
    Refines IsFunctionOf (Value.total (.list serial vs)) (Addend.sum? vs) := by
  have hjoin : ∀ (fs : List FunctionObject) (as : List Addend), List.Forall₂ HasAddend fs as →
      Refines IsFunctionOf (joined fs) (some (as.foldl Addend.add Addend.zero)) := by
    intro fs as has
    have hmap : fs.map FunctionObject.addend = as := by
      rw [← List.forall₂_eq_eq_eq, List.forall₂_map_left_iff]
      exact has
    rw [← hmap]
    exact refines_joined fs
  rw [total_eq, Addend.sum?, Option.map_eq_bind]
  exact refines_bind (refines_mapM fun w hw => refines_asFunction (hvs w hw)) hjoin

/-- **Adding the items one after another refines the same fold**, if the first is an
expression. -/
theorem refines_sum {v : Value} {vs : List Value} (hv : v.isExpression = true)
    (hvs : ∀ w ∈ vs, w.isItem = true) (serial : Nat) :
    Refines IsFunctionOf (Value.sum (.list serial (v :: vs))) (Addend.sum? (v :: vs)) := by
  have hsum : Value.sum (.list serial (v :: vs)) =
      (Value.number .shared (.int 0)).add v >>= fun a => vs.foldlM Value.add a := rfl
  have hanswer : Addend.sum? (v :: vs) =
      (v.addend?.map Addend.zero.add).bind fun a =>
        vs.foldlM (fun b w => w.addend?.map b.add) a := by
    rw [Addend.sum?, ← foldlM_addend?]
    rfl
  rw [hsum, hanswer]
  exact refines_bind (refines_zero_add hv) fun a b hab =>
    refines_foldlM hab fun w hw a b hab => refines_add hab (hvs w hw)

/-! ## Both ways -/

/-- Two functions with the same terms in the same order and the same constant to the last bit. -/
structure SameFunction (f g : FunctionObject) : Prop where
  terms : f.terms.map Value.content = g.terms.map Value.content
  constant : f.constant.value = g.constant.value

/-- Two functions that are the same have the same function without identities. -/
theorem SameFunction.function? {f g : FunctionObject} (h : SameFunction f g) :
    f.function? = g.function? := by
  have hcontent : ∀ w : Value, w.content.term? = w.term? := by
    intro w
    cases w with
    | term serial x k => cases k <;> rfl
    | _ => rfl
  have hterms : ∀ ts : List Value,
      (ts.map Value.content).mapM Value.term? = ts.mapM Value.term? := by
    intro ts
    rw [List.mapM_map]
    exact congrArg (ts.mapM ·) (funext hcontent)
  have hf : f.function? = (f.terms.mapM Value.term?).map (⟨·, f.constant.value⟩) := rfl
  have hg : g.function? = (g.terms.mapM Value.term?).map (⟨·, g.constant.value⟩) := rfl
  rw [hf, hg, ← hterms f.terms, ← hterms g.terms, h.terms, h.constant]

/-- An integer that is too large to be a real. -/
def Value.isTooLarge (v : Value) : Prop :=
  ∃ k, v.number? = some k ∧ k.real? = none

theorem addend?_eq_none_iff {v : Value} (hv : v.isItem = true) :
    v.addend? = none ↔ v.isTooLarge := by
  cases v with
  | number m k => simp [Value.addend?, Value.isTooLarge, Value.number?]
  | function serial m ts c => simp [Value.addend?, Value.isTooLarge, Value.number?]
  | «variable» id name d lo hi => simp [Value.addend?, Value.isTooLarge, Value.number?]
  | _ => cases hv

theorem sum?_eq_none_iff {v : Value} {vs : List Value} (hv : v.isExpression = true)
    (hvs : ∀ w ∈ vs, w.isItem = true) :
    Addend.sum? (v :: vs) = none ↔ ∃ w ∈ vs, w.isTooLarge := by
  have hfirst : v.addend? ≠ none := by
    cases v with
    | function serial m ts c => exact Option.some_ne_none _
    | «variable» id name d lo hi => exact Option.some_ne_none _
    | _ => cases hv
  rw [Addend.sum?, Option.map_eq_none_iff, mapM_eq_none_iff, List.exists_mem_cons_iff,
    or_iff_right hfirst]
  exact exists_congr fun w => and_congr_right fun hw => addend?_eq_none_iff (hvs w hw)

/-- **The two ways to add up a list agree**, whatever objects there are already: both fail by an
integer that is too large, or both give the same function. -/
theorem sum_agrees_total {v : Value} {vs : List Value} (hv : v.isExpression = true)
    (hvs : ∀ w ∈ vs, w.isExpression = true ∨ w.number?.isSome = true) (serial n n' : Nat) :
    ((∃ w ∈ vs, w.isTooLarge) ∧
      (Value.sum (.list serial (v :: vs))).run n = .error .overflow ∧
      (Value.total (.list serial (v :: vs))).run n' = .error .overflow) ∨
    ((∀ w ∈ vs, ¬ w.isTooLarge) ∧ ∃ f g m m',
      (Value.sum (.list serial (v :: vs))).run n = .ok (FunctionObject.toValue f, m) ∧
      (Value.total (.list serial (v :: vs))).run n' = .ok (FunctionObject.toValue g, m') ∧
      SameFunction f g ∧ f.function? = g.function?) := by
  have hitems : ∀ w ∈ vs, w.isItem = true := fun w hw => by
    rw [Value.isItem, Bool.or_eq_true]
    exact hvs w hw
  have hboth : ∀ w ∈ v :: vs, w.isItem = true :=
    List.forall_mem_cons.mpr ⟨by rw [Value.isItem, hv, Bool.true_or], hitems⟩
  have hsum := refines_sum hv hitems serial
  have htotal := refines_total hboth serial
  have hnone := sum?_eq_none_iff hv hitems
  cases hanswer : Addend.sum? (v :: vs) with
  | none =>
    rw [hanswer] at hsum htotal
    exact .inl ⟨hnone.mp hanswer, run_of_refines_none hsum n, run_of_refines_none htotal n'⟩
  | some a =>
    rw [hanswer] at hsum htotal
    obtain ⟨_, m, hrun, f, rfl, hf⟩ := run_of_refines_some hsum n
    obtain ⟨_, m', hrun', g, rfl, hg⟩ := run_of_refines_some htotal n'
    have hsame : SameFunction f g :=
      ⟨congrArg Addend.terms (hf.trans hg.symm), congrArg Addend.constant (hf.trans hg.symm)⟩
    have hfits : ∀ w ∈ vs, ¬ w.isTooLarge := by
      intro w hw hlarge
      rw [hnone.mpr ⟨w, hw, hlarge⟩] at hanswer
      cases hanswer
    exact .inr ⟨hfits, f, g, m, m', hrun, hrun', hsame, hsame.function?⟩

/-- A variable, a function of it, a real and an integer. -/
def mixedItems : Value × List Value :=
  let x := Value.variable 0 (.text .shared "x") .real .nothing .nothing
  (x, [.function 1 (.made 2) [.term 3 x (.number .shared (.int 2))] ⟨.made 4, 0.1⟩,
    .number (.made 5) (.real 0.2), .number .shared (.int 3)])

theorem sum_agrees_total_mixedItems : ∃ f g m m',
    (Value.sum (.list 6 (mixedItems.1 :: mixedItems.2))).run 7 =
      .ok (FunctionObject.toValue f, m) ∧
    (Value.total (.list 6 (mixedItems.1 :: mixedItems.2))).run 9 =
      .ok (FunctionObject.toValue g, m') ∧
    SameFunction f g ∧ f.function? = g.function? := by
  have hfits : ∀ w ∈ mixedItems.2, ¬ w.isTooLarge := by
    have hthree : (Scalar.ofInt? 3 : Option Float) ≠ none := by decide +kernel
    simp [mixedItems, Value.isTooLarge, Value.number?, Number.real?, hthree]
  have hexpression : mixedItems.1.isExpression = true := rfl
  have hitems : ∀ w ∈ mixedItems.2, w.isExpression = true ∨ w.number?.isSome = true := by decide
  obtain ⟨⟨w, hw, hlarge⟩, _⟩ | ⟨_, hsame⟩ := sum_agrees_total hexpression hitems 6 7 9
  · exact absurd hlarge (hfits w hw)
  · exact hsame

end LinearProgram.Session
