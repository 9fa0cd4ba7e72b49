import LinearProgram.Session.Value
/-!
# Equal and identical

Variables are equal only when they are identical.  Terms, functions, constraints,
objectives and models are equal when their parts are, and numbers when their values
are.  Inside another object two parts count as equal also when they are one and the
same object, which matters for NaN alone.

An expression and a number compare to a constraint, which counts as true; but the members
of a set are told apart first, and there the two are different.  `Mixing` says which of
the two is meant.
-/
namespace LinearProgram.Session

/-- Whether two values are one and the same object. -/
def Value.identical : Value → Value → Bool
  | .nothing, .nothing => true
  | .text m s, .text n t => m = n && s = t
  | .number m a, .number n b => m = n && a = b
  | .word u, .word w => u = w
  | .list m _, .list n _ => m = n
  | .tuple m as, .tuple n bs => m = n && as.length = bs.length
  | .record m _ _, .record n _ _ => m = n
  | .variable m _ _ _ _, .variable n _ _ _ _ => m = n
  | .term m _ _, .term n _ _ => m = n
  | .function m _ _ _, .function n _ _ _ => m = n
  | .constraint m _ _ _, .constraint n _ _ _ => m = n
  | .objective m _ _, .objective n _ _ => m = n
  | .model m _ _ _, .model n _ _ _ => m = n
  | _, _ => false

/-- The same real, or reals of the same value. -/
def RealObject.same (x y : RealObject) : Bool :=
  (x.mark = y.mark && x.value = y.value) || Scalar.eq x.value y.value

/-- The number of two values of which the other one is an expression. -/
def Value.mixedNumber? (a b : Value) : Option (Number Float) :=
  if a.isExpression then b.number? else if b.isExpression then a.number? else none

/-- Whether comparing two values for equality makes a constraint: an expression is
compared with a number. -/
def Value.constrains (a b : Value) : Bool :=
  (a.mixedNumber? b).isSome

/-- How an expression and a number compare inside other values. -/
inductive Mixing where
  /-- They compare to a constraint, which counts as true. -/
  | constraint
  | different
deriving DecidableEq, Repr

/-- The outcome for two values of different kinds: they are different, unless they are an
expression and a number. -/
def Mixing.outcome (mixing : Mixing) (a b : Value) : Except Fault Bool :=
  match mixing, a.mixedNumber? b with
  | constraint, some k => if k.real?.isSome then .ok true else .error .overflow
  | _, _ => .ok false

mutual

/-- Whether two values compare as equal. -/
def Value.equal (mixing : Mixing) (a b : Value) : Except Fault Bool :=
  match a, b with
  | .nothing, .nothing => .ok true
  | .text _ s, .text _ t => .ok (s = t)
  | .text _ s, .word w => .ok (s = w.text)
  | .word w, .text _ s => .ok (w.text = s)
  | .word u, .word w => .ok (u.text = w.text)
  | .number _ j, .number _ k => .ok (j.equals k)
  | .list _ as, .list _ bs =>
    if as.length = bs.length then equalItems mixing as bs else .ok false
  | .tuple _ as, .tuple _ bs => equalItems mixing as bs
  | .record _ ks as, .record _ ls bs => if ks = ls then equalItems mixing as bs else .ok false
  | .variable m _ _ _ _, .variable n _ _ _ _ => .ok (m = n)
  | .term _ x j, .term _ y k => do
    if !x.identical y then if !(← x.equal mixing y) then return false
    if j.identical k then return true else j.equal mixing k
  | .function _ _ as c, .function _ _ bs d => do
    if ← equalItems mixing as bs then return Scalar.eq c.value d.value else return false
  | .constraint _ f r c, .constraint _ g s d => do
    if !f.identical g then if !(← f.equal mixing g) then return false
    return r = s && c.same d
  | .objective _ f o, .objective _ g p => do
    if !f.identical g then if !(← f.equal mixing g) then return false
    return o = p
  | .model _ m o cs, .model _ n p ds => do
    if !m.identical n then if !(← m.equal mixing n) then return false
    if !o.identical p then if !(← o.equal mixing p) then return false
    cs.equal mixing ds
  | a, b => mixing.outcome a b

/-- Whether two lists have the same length and the same items. -/
def equalItems (mixing : Mixing) : List Value → List Value → Except Fault Bool
  | [], [] => .ok true
  | a :: as, b :: bs => do
    if !a.identical b then if !(← a.equal mixing b) then return false
    equalItems mixing as bs
  | _, _ => .ok false

end

/-- Whether two values are identical or compare as equal. -/
def Value.same (mixing : Mixing) (a b : Value) : Except Fault Bool :=
  if a.identical b then .ok true else a.equal mixing b

/-! ## Sets -/

mutual

/-- Whether a value can be the member of a set: it holds no list and no record. -/
def Value.isHashable : Value → Bool
  | .list _ _ | .record _ _ _ => false
  | .tuple _ items => hashableItems items
  | .term _ x factor => x.isHashable && factor.isHashable
  | .function _ _ terms _ => hashableItems terms
  | .constraint _ f _ _ | .objective _ f _ => f.isHashable
  | .model _ name objective constraints =>
    name.isHashable && objective.isHashable && constraints.isHashable
  | _ => true

/-- The same for all items of a list. -/
def hashableItems : List Value → Bool
  | [] => true
  | v :: vs => v.isHashable && hashableItems vs

end

/-- Whether a set holds two values only once. -/
def Value.coincides (a b : Value) : Bool :=
  match a.same .different b with
  | .ok same => same
  | .error _ => false

/-- The number of distinct values. -/
def countDistinct : List Value → Nat
  | [] => 0
  | v :: vs => (if vs.any v.coincides then 0 else 1) + countDistinct vs

end LinearProgram.Session
