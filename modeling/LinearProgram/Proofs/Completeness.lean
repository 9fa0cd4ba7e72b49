import Mathlib
import LinearProgram.Proofs.InProcess.Meaning
import LinearProgram.Proofs.Preservation
/-!
# Equal functions have equal normal forms

Numbers are read as exact rationals here.  Two functions are the same if they have the same value
under every valuation (`SameValues`).  A valuation goes by names, so it tells two variables apart
only if they have different ones (`NamesApart`).  Under this condition the normal form decides:
functions are the same exactly if their normal forms have the same constant and the same terms,
in whatever order (`normalized?_decides`).

## How the proof goes

Both sides are compared by total factors.  A normal form has a term for each total factor that is
not zero, with this factor (`mem_exactTerms_of_normalized?`), and it has the total factors of the
function that it comes from.  So the terms tell the total factors, and these the terms.

That functions with the same values have the same constant and the same total factors takes two
kinds of valuations only: all zero shows the constant, and one for a single name (`indicator`)
shows the total factor of the variable with this name.
-/
namespace LinearProgram.LinearFunction

open InProcess (named)

variable {f g : LinearFunction Rat} {v : Variable Rat}

/-- The variables of the terms with the exact values of their factors. -/
def exactTerms (f : LinearFunction Rat) : List (Variable Rat × Rat) :=
  f.terms.map fun t => (t.var, t.factor.toRat)

/-- Two functions have the same value under every valuation of names. -/
def SameValues (f g : LinearFunction Rat) : Prop :=
  ∀ values : Text → Number Rat, ∃ x, f.value? values = some x ∧ g.value? values = some x

/-- No two variables that occur in the functions share a name. -/
def NamesApart (f g : LinearFunction Rat) : Prop :=
  ∀ t ∈ f.terms ++ g.terms, ∀ u ∈ f.terms ++ g.terms, t.var.name = u.var.name → t.var = u.var

/-! ## Terms of a normal form -/

theorem exactValue_eq (f : LinearFunction Rat) (x : Variable Rat → Rat) :
    f.exactValue x = f.constant + (f.exactTerms.map fun p => x p.1 * p.2).sum := by
  rw [exactTerms, List.map_map]
  rfl

theorem IsNormal.nodup_exactTerms (h : f.IsNormal) : f.exactTerms.Nodup := by
  refine List.Nodup.of_map Prod.fst ?_
  rw [exactTerms, List.map_map]
  exact h.nodup

/-- A normal form has a term for each total factor that is not zero, with this factor. -/
theorem IsNormal.mem_exactTerms_iff (h : f.IsNormal) {p : Variable Rat × Rat} :
    p ∈ f.exactTerms ↔ p.2 ≠ 0 ∧ f.totalFactor p.1 = p.2 := by
  constructor
  · intro hp
    obtain ⟨t, ht, rfl⟩ := List.mem_map.mp hp
    have hne := h.totalFactor_ne_zero_iff.mpr ⟨t, ht, rfl⟩
    exact ⟨h.totalFactor_eq ht ▸ hne, h.totalFactor_eq ht⟩
  · rintro ⟨hne, hp⟩
    obtain ⟨t, ht, hvar⟩ := h.totalFactor_ne_zero_iff.mp (hp ▸ hne)
    refine List.mem_map.mpr ⟨t, ht, Prod.ext hvar ?_⟩
    rw [← hp, ← hvar, h.totalFactor_eq ht]

theorem mem_exactTerms_of_normalized? {n : LinearFunction Rat} (h : f.normalized? = some n)
    {p : Variable Rat × Rat} : p ∈ n.exactTerms ↔ p.2 ≠ 0 ∧ f.totalFactor p.1 = p.2 := by
  rw [(isNormal_of_normalized? h).mem_exactTerms_iff, totalFactor_of_normalized? h]

theorem exactValue_eq_of_perm (hconstant : f.constant = g.constant)
    (hterms : f.exactTerms.Perm g.exactTerms) (x : Variable Rat → Rat) :
    f.exactValue x = g.exactValue x := by
  rw [exactValue_eq, exactValue_eq, hconstant, (hterms.map _).sum_eq]

/-! ## Valuations that tell functions apart -/

theorem sameValues_iff : SameValues f g ↔
    ∀ values : Text → Number Rat, f.exactValue (named values) = g.exactValue (named values) := by
  refine forall_congr' fun values => ?_
  rw [value?_eq, value?_eq]
  constructor
  · rintro ⟨x, hf, hg⟩
    exact (Option.some.inj hf).trans (Option.some.inj hg).symm
  · intro h
    exact ⟨_, rfl, congrArg some h.symm⟩

/-- The valuation that gives 1 to one name and 0 to all others. -/
def indicator (name other : Text) : Number Rat :=
  .int (if other = name then 1 else 0)

theorem exactValue_zero (f : LinearFunction Rat) :
    f.exactValue (named fun _ => .int 0) = f.constant := by
  simp [exactValue, named, Number.toRat]

/-- Where a name tells a variable, its indicator shows the total factor. -/
theorem exactValue_indicator (hname : ∀ t ∈ f.terms, t.var.name = v.name → t.var = v) :
    f.exactValue (named (indicator v.name)) = f.constant + f.totalFactor v := by
  rw [← exactValue_single]
  refine exactValue_congr fun t ht => ?_
  by_cases hvar : t.var = v
  · simp [named, indicator, Number.toRat, hvar]
  · have hne : t.var.name ≠ v.name := fun e => hvar (hname t ht e)
    simp [named, indicator, Number.toRat, hvar, hne]

theorem SameValues.constant_eq (h : SameValues f g) : f.constant = g.constant := by
  have hzero := sameValues_iff.mp h fun _ => .int 0
  rwa [exactValue_zero, exactValue_zero] at hzero

/-- Functions with the same values have the same total factors. -/
theorem SameValues.totalFactor_eq (h : SameValues f g) (hnames : NamesApart f g)
    (v : Variable Rat) : f.totalFactor v = g.totalFactor v := by
  by_cases hv : ∃ t ∈ f.terms ++ g.terms, t.var = v
  · obtain ⟨t, ht, rfl⟩ := hv
    have hf := exactValue_indicator (f := f) fun u hu =>
      hnames u (List.mem_append_left _ hu) t ht
    have hg := exactValue_indicator (f := g) fun u hu =>
      hnames u (List.mem_append_right _ hu) t ht
    have hvalue := sameValues_iff.mp h (indicator t.var.name)
    rw [hf, hg, h.constant_eq] at hvalue
    exact add_left_cancel hvalue
  · have hnone : ∀ t ∈ f.terms ++ g.terms, t.var ≠ v := fun t ht e => hv ⟨t, ht, e⟩
    rw [totalFactor_eq_zero fun t ht => hnone t (List.mem_append_left _ ht),
      totalFactor_eq_zero fun t ht => hnone t (List.mem_append_right _ ht)]

/-! ## Equality -/

/-- **The normal form decides equality of functions**: two functions have the same values exactly
if their normal forms have the same constant and the same terms.  Then the terms are the same up
to order. -/
theorem normalized?_decides (f g : LinearFunction Rat) (hnames : NamesApart f g) :
    ∃ m n, f.normalized? = some m ∧ g.normalized? = some n ∧
      (SameValues f g ↔
        m.constant = n.constant ∧ ∀ p, p ∈ m.exactTerms ↔ p ∈ n.exactTerms) ∧
      (SameValues f g → m.exactTerms.Perm n.exactTerms) := by
  obtain ⟨m, hm⟩ := f.exists_normalized?
  obtain ⟨n, hn⟩ := g.exists_normalized?
  have hsame : SameValues f g → ∀ p, p ∈ m.exactTerms ↔ p ∈ n.exactTerms := by
    intro h p
    rw [mem_exactTerms_of_normalized? hm, mem_exactTerms_of_normalized? hn,
      h.totalFactor_eq hnames]
  have hperm : (∀ p, p ∈ m.exactTerms ↔ p ∈ n.exactTerms) → m.exactTerms.Perm n.exactTerms :=
    (List.perm_ext_iff_of_nodup (isNormal_of_normalized? hm).nodup_exactTerms
      (isNormal_of_normalized? hn).nodup_exactTerms).mpr
  refine ⟨m, n, hm, hn, ⟨fun h => ⟨?_, hsame h⟩, ?_⟩, fun h => hperm (hsame h)⟩
  · rw [constant_of_normalized? hm, constant_of_normalized? hn, h.constant_eq]
  · rintro ⟨hconstant, hterms⟩
    refine sameValues_iff.mpr fun values => ?_
    rw [← exactValue_of_normalized? hm, ← exactValue_of_normalized? hn]
    exact exactValue_eq_of_perm hconstant (hperm hterms) _

/-- A real variable without bounds. -/
def free (id : Nat) (name : String) : Variable Rat :=
  ⟨id, Text.ofString name, .real, none, none⟩

/-- The function `2 x + 3 y - x + 7`. -/
def longWay : LinearFunction Rat :=
  ⟨[⟨free 0 "x", .int 2⟩, ⟨free 1 "y", .real 3⟩, ⟨free 0 "x", .int (-1)⟩], 7⟩

/-- The same function, with other terms in another order. -/
def otherWay : LinearFunction Rat :=
  ⟨[⟨free 1 "y", .bool true⟩, ⟨free 0 "x", .real 0⟩, ⟨free 1 "y", .int 2⟩,
    ⟨free 0 "x", .bool true⟩], 7⟩

theorem normalized?_decides_longWay : NamesApart longWay otherWay ∧
    ∃ m n, longWay.normalized? = some m ∧ otherWay.normalized? = some n ∧ m ≠ n ∧
      SameValues longWay otherWay ∧ m.exactTerms.Perm n.exactTerms := by
  have hnames : NamesApart longWay otherWay := by
    unfold NamesApart
    decide +kernel
  have hlong : longWay.normalized? = some ⟨[⟨free 0 "x", .int 1⟩, ⟨free 1 "y", .real 3⟩], 7⟩ := by
    decide +kernel
  have hother : otherWay.normalized? =
      some ⟨[⟨free 1 "y", .int 3⟩, ⟨free 0 "x", .bool true⟩], 7⟩ := by
    decide +kernel
  obtain ⟨m, n, hm, hn, hiff, hperm⟩ := normalized?_decides longWay otherWay hnames
  obtain rfl := Option.some.inj (hlong.symm.trans hm)
  obtain rfl := Option.some.inj (hother.symm.trans hn)
  have hsame : SameValues longWay otherWay := by
    refine hiff.mpr ⟨rfl, fun p => List.Perm.mem_iff ?_⟩
    decide +kernel
  exact ⟨hnames, _, _, hm, hn, by decide +kernel, hsame, hperm hsame⟩

end LinearProgram.LinearFunction
