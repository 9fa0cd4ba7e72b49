import Mathlib
import LinearProgram.Proofs.NormalForm
import LinearProgram.Proofs.Double.Zero
/-!
# The canonical form of a function

What `normalized?` makes of a function over the doubles is told here without groups: by
`factorsOf`, the factors of one variable that are not zero, in the order of the terms.
`IsCanonicalOf` says that a variable occurs exactly if the sum of its factors is not zero, and
what its factor is then.  Doubles are only added from left to right, so no law of addition is
needed.

## How the proof goes

`mem_terms_iff_of_normalized?` reads the terms of the normal form off the groups: a term stands
there exactly if the factors of its variable combine to its factor, and this is not zero.
Combining and summing differ for a lone factor only, and then both succeed, with results that
are zero or not together (`exists_combined?_iff`).
-/
namespace LinearProgram.LinearFunction

section

variable {R : Type} [Scalar R] [DecidableEq R]

/-- The factors of a variable that are not zero, in the order of the terms. -/
def factorsOf (f : LinearFunction R) (v : Variable R) : List (Number R) :=
  (f.terms.filter fun t => t.var = v && !t.factor.isZero).map (·.factor)

variable {f g : LinearFunction R} {v : Variable R}

theorem isZero_of_mem_factorsOf {k : Number R} (hk : k ∈ f.factorsOf v) : k.isZero = false := by
  obtain ⟨t, ht, rfl⟩ := List.mem_map.mp hk
  have hfilter := (List.mem_filter.mp ht).2
  simp only [Bool.and_eq_true, Bool.not_eq_true'] at hfilter
  exact hfilter.2

theorem valuesOf_nonzeroTerms (f : LinearFunction R) (v : Variable R) :
    valuesOf v (f.nonzeroTerms.map fun t => (t.var, t.factor)) = f.factorsOf v :=
  valuesOf_map_filter v _ _ _ f.terms

/-- The groups are the variables that have factors, each with all of them. -/
theorem mem_groups_iff {p : Variable R × List (Number R)} :
    p ∈ f.groups ↔ p.2 = f.factorsOf p.1 ∧ f.factorsOf p.1 ≠ [] := by
  rw [groups, mem_group, ← valuesOf_nonzeroTerms, ne_eq, valuesOf_eq_nil_iff, not_not, and_comm]

/-- A term stands in the normal form exactly if the factors of its variable combine to its
factor, and this is not zero. -/
theorem mem_terms_iff_of_normalized? (h : f.normalized? = some g) {t : Term R} :
    t ∈ g.terms ↔ f.factorsOf t.var ≠ [] ∧ combined? (f.factorsOf t.var) = some t.factor ∧
      t.factor.isZero = false := by
  constructor
  · intro ht
    obtain ⟨factors, hgroup, hcombined⟩ := mem_terms_of_normalized? h ht
    obtain ⟨hfactors, hne⟩ := mem_groups_iff.mp hgroup
    simp only at hfactors hne
    rw [hfactors] at hcombined
    exact ⟨hne, hcombined, (isNormal_of_normalized? h).nonzero t ht⟩
  · rintro ⟨hne, hcombined, hzero⟩
    rw [normalized?_eq_merged?] at h
    obtain ⟨ts, hts, rfl⟩ := merged?_eq_some_iff.mp h
    have hgroup : (t.var, f.factorsOf t.var) ∈ f.groups := mem_groups_iff.mpr ⟨rfl, hne⟩
    obtain ⟨u, hu, hvar, hfactor⟩ := exists_mem_of_forall₂ hts hgroup
    have htu : u = t := by
      obtain ⟨v, k⟩ := t
      obtain ⟨w, j⟩ := u
      simp only at hvar hfactor hcombined
      subst hvar
      rw [hcombined] at hfactor
      rw [Option.some.inj hfactor]
    exact List.mem_filter.mpr ⟨htu ▸ hu, by simp [hzero]⟩

/-- One function is the canonical form of the other: it has a term for each variable whose
factors do not sum to zero, with this sum, or with the factor itself if there is only one. -/
structure IsCanonicalOf (g f : LinearFunction R) : Prop where
  constant : g.constant = f.constant
  nodup : (g.terms.map (·.var)).Nodup
  nonzero : ∀ t ∈ g.terms, t.factor.isZero = false
  occurs : ∀ v, v ∈ g.terms.map (·.var) ↔
    ∃ s, Number.sum? (f.factorsOf v) = some s ∧ s.isZero = false
  sum : ∀ t ∈ g.terms, (f.factorsOf t.var).length ≠ 1 →
    Number.sum? (f.factorsOf t.var) = some t.factor
  lone : ∀ t ∈ g.terms, ∀ k, f.factorsOf t.var = [k] → t.factor = k

end

/-! ## Sums of doubles -/

/-- Factors that are not zero combine if they have a sum. -/
theorem exists_combined? {xs : List (Number Float)} (hxs : ∀ k ∈ xs, k.isZero = false) :
    (∃ k, combined? xs = some k) ↔ ∃ s, Number.sum? xs = some s := by
  match xs with
  | [] => rfl
  | [k] =>
    have hsum := Double.sum?_singleton (hxs k (by simp))
    exact ⟨fun _ => ⟨k.plus, hsum⟩, fun _ => ⟨k, rfl⟩⟩
  | _ :: _ :: _ => rfl

/-- Factors that are not zero combine to one that is not zero exactly if their sum is not. -/
theorem exists_combined?_iff {xs : List (Number Float)} (hxs : ∀ k ∈ xs, k.isZero = false) :
    (∃ k, xs ≠ [] ∧ combined? xs = some k ∧ k.isZero = false) ↔
      ∃ s, Number.sum? xs = some s ∧ s.isZero = false := by
  match xs with
  | [] =>
    have hsum : Number.sum? ([] : List (Number Float)) = some (.int 0) := rfl
    have hzero : (Number.int 0 : Number Float).isZero = true := rfl
    simp [hsum, hzero]
  | [k] =>
    have hk : k.isZero = false := hxs k (by simp)
    have hplus : k.plus.isZero = false := (Double.isZero_plus k).trans hk
    exact ⟨fun _ => ⟨k.plus, Double.sum?_singleton hk, hplus⟩, fun _ => ⟨k, by simp, rfl, hk⟩⟩
  | x :: y :: zs =>
    have hcombined : combined? (x :: y :: zs) = Number.sum? (x :: y :: zs) := rfl
    simp [hcombined]

variable {f g : LinearFunction Float}

/-- A function over the doubles has a normal form exactly if all sums of factors exist. -/
theorem exists_normalized?_iff :
    (∃ g, f.normalized? = some g) ↔ ∀ v, ∃ s, Number.sum? (f.factorsOf v) = some s := by
  constructor
  · rintro ⟨g, h⟩ v
    rw [← exists_combined? fun k hk => isZero_of_mem_factorsOf hk]
    by_cases hne : f.factorsOf v = []
    · exact ⟨.int 0, by rw [hne]; rfl⟩
    · rw [normalized?_eq_merged?] at h
      obtain ⟨ts, hts, rfl⟩ := merged?_eq_some_iff.mp h
      have hgroup : (v, f.factorsOf v) ∈ f.groups := mem_groups_iff.mpr ⟨rfl, hne⟩
      obtain ⟨t, _, _, hcombined⟩ := exists_mem_of_forall₂ hts hgroup
      exact ⟨t.factor, hcombined⟩
  · intro hsums
    refine exists_normalized?_of_combined fun p hp => ?_
    rw [(mem_groups_iff.mp hp).1, exists_combined? fun k hk => isZero_of_mem_factorsOf hk]
    exact hsums p.1

theorem isCanonicalOf_of_normalized? (h : f.normalized? = some g) : g.IsCanonicalOf f where
  constant := constant_of_normalized? h
  nodup := (isNormal_of_normalized? h).nodup
  nonzero := (isNormal_of_normalized? h).nonzero
  occurs v := by
    rw [← exists_combined?_iff fun k hk => isZero_of_mem_factorsOf hk, List.mem_map]
    constructor
    · rintro ⟨t, ht, rfl⟩
      exact ⟨t.factor, (mem_terms_iff_of_normalized? h).mp ht⟩
    · rintro ⟨k, hk⟩
      exact ⟨⟨v, k⟩, (mem_terms_iff_of_normalized? h).mpr hk, rfl⟩
  sum t ht hlength := by
    obtain ⟨_, hcombined, _⟩ := (mem_terms_iff_of_normalized? h).mp ht
    generalize f.factorsOf t.var = xs at hlength hcombined ⊢
    match xs with
    | [] => exact hcombined
    | [_] => exact absurd rfl hlength
    | _ :: _ :: _ => exact hcombined
  lone t ht k hk := by
    obtain ⟨_, hcombined, _⟩ := (mem_terms_iff_of_normalized? h).mp ht
    rw [hk] at hcombined
    exact (Option.some.inj hcombined).symm

/-- **Normalising makes the canonical form**: its shortcuts change nothing, it succeeds exactly
if every sum of factors exists, and what it makes is canonical. -/
theorem normalized?_canonical (f : LinearFunction Float) :
    f.normalized? = f.merged? ∧
      ((∃ g, f.normalized? = some g) ↔ ∀ v, ∃ s, Number.sum? (f.factorsOf v) = some s) ∧
      ∀ g, f.normalized? = some g → g.IsCanonicalOf f :=
  ⟨normalized?_eq_merged? f, exists_normalized?_iff, fun _ h => isCanonicalOf_of_normalized? h⟩

-- An integer that no double holds, a negative zero, a NaN, and a lone truth value.
example :
    let v (id : Nat) : Variable Float := ⟨id, Text.ofString "v", .real, none, none⟩
    normalized? ⟨[⟨v 0, .int (2 ^ 70)⟩, ⟨v 1, .real (-0.0)⟩, ⟨v 2, .real Decimal.nan⟩,
      ⟨v 0, .bool true⟩, ⟨v 3, .bool true⟩], 1.0⟩
        = some ⟨[⟨v 0, .int (2 ^ 70 + 1)⟩, ⟨v 2, .real Decimal.nan⟩, ⟨v 3, .bool true⟩], 1.0⟩ := by
  decide +kernel

end LinearProgram.LinearFunction
