import Mathlib
import LinearProgram.Proofs.NormalForm
import LinearProgram.Scalar.Double
/-!
# The order of a normal form

A variable may have several terms, and some of them may have the factor zero.  The place of a
variable in a function is that of its first term (`place`); its place among the terms that count
is that of its first term with a factor other than zero (`nonzeroPlace`).  The variables of the
normal form stand in the order of the latter.

The two orders are the same as long as no variable starts with a zero (`StartsNonzero`).
Otherwise they may differ: in `lateFunction`, which is `0 x + y + x`, the variable `x` comes
first, and its normal form is `y + x`.

## How the proof goes

Groups stand in the order of the first terms that count, and each leaves one term or none.  So
the variables of the normal form are a part of those of the groups, in their order
(`vars_sublist_of_normalized?`), and such a part has the same element first
(`idxOf_lt_iff_of_sublist`).  What a first term that counts stands before, it still stands before
when zeros are dropped: that is an induction along the terms
(`nonzeroPlace_lt_of_startsNonzero`).
-/
namespace LinearProgram.LinearFunction

section

variable {R : Type} [Scalar R] [DecidableEq R]

/-- The place of the first term of a variable, and the number of terms if it has none. -/
def place (f : LinearFunction R) (v : Variable R) : Nat :=
  (f.terms.map (·.var)).idxOf v

/-- The place of a variable among the terms with a factor other than zero. -/
def nonzeroPlace (f : LinearFunction R) (v : Variable R) : Nat :=
  (f.nonzeroTerms.map (·.var)).idxOf v

/-- The first term of a variable has a factor other than zero. -/
def StartsNonzero (f : LinearFunction R) (v : Variable R) : Prop :=
  ∃ t, f.terms.find? (·.var = v) = some t ∧ t.factor.isZero = false

/-- The variables of the second function stand there in the order of their first terms in the
first one. -/
def KeepsOrder (f g : LinearFunction R) : Prop :=
  ∀ u ∈ g.terms.map (·.var), ∀ v ∈ g.terms.map (·.var),
    f.place u < f.place v → g.place u < g.place v

variable {f g : LinearFunction R} {u v : Variable R}

theorem place_lt_iff_of_normalized? (h : f.normalized? = some g)
    (hu : u ∈ g.terms.map (·.var)) (hv : v ∈ g.terms.map (·.var)) :
    g.place u < g.place v ↔ f.nonzeroPlace u < f.nonzeroPlace v := by
  have hvars := vars_sublist_of_normalized? h
  rw [groups, keys_group, List.map_map] at hvars
  rw [place, place, idxOf_lt_iff_of_sublist hvars (nodup_eraseDups _) hu hv,
    idxOf_eraseDups_lt_iff]
  rfl

/-- A variable that starts with a factor other than zero stays before what it stood before. -/
theorem nonzeroPlace_lt_of_startsNonzero (hu : f.StartsNonzero u) (h : f.place u < f.place v) :
    f.nonzeroPlace u < f.nonzeroPlace v := by
  obtain ⟨ts, c⟩ := f
  simp only [StartsNonzero, place, nonzeroPlace, nonzeroTerms] at hu h ⊢
  induction ts with
  | nil => exact h
  | cons t ts ih =>
    by_cases htu : t.var = u
    · have hzero : t.factor.isZero = false := by simpa [htu] using hu
      have hne : u ≠ v := fun e => by simp [e] at h
      simp [hzero, htu, List.idxOf_cons_ne _ hne]
    · by_cases htv : t.var = v
      · simp [htv] at h
      · have hrest := ih (by simpa [htu] using hu)
          (by simpa [List.idxOf_cons_ne _ htu, List.idxOf_cons_ne _ htv] using h)
        cases hzero : t.factor.isZero with
        | true => simpa [hzero] using hrest
        | false => simpa [hzero, List.idxOf_cons_ne _ htu, List.idxOf_cons_ne _ htv] using hrest

/-- **The normal form keeps the order of the terms that count**: of two variables that are left,
the one with the earlier factor other than zero stands first.  If all that are left start with
such a factor, they keep the order of their first terms. -/
theorem normalized?_ordered (h : f.normalized? = some g) :
    (∀ u ∈ g.terms.map (·.var), ∀ v ∈ g.terms.map (·.var),
      g.place u < g.place v ↔ f.nonzeroPlace u < f.nonzeroPlace v) ∧
    ((∀ v ∈ g.terms.map (·.var), f.StartsNonzero v) → KeepsOrder f g) := by
  refine ⟨fun u hu v hv => place_lt_iff_of_normalized? h hu hv, fun hstarts u hu v hv huv => ?_⟩
  rw [place_lt_iff_of_normalized? h hu hv]
  exact nonzeroPlace_lt_of_startsNonzero (hstarts u hu) huv

end

/-! ## Functions over the doubles -/

/-- The variable with this number; the name does not matter to the order. -/
def numbered (id : Nat) : Variable Float :=
  ⟨id, Text.ofString "v", .real, none, none⟩

/-- Repeated, cancelling and vanishing terms, of integers, doubles and a truth value. -/
def crowdedFunction : LinearFunction Float :=
  ⟨[⟨numbered 2, .int 3⟩, ⟨numbered 0, .real 1.5⟩, ⟨numbered 1, .real 2.0⟩,
    ⟨numbered 0, .real (-1.5)⟩, ⟨numbered 2, .int 1⟩, ⟨numbered 3, .bool true⟩,
    ⟨numbered 1, .real 0.0⟩], 7.0⟩

theorem normalized?_ordered_crowdedFunction : ∃ g, crowdedFunction.normalized? = some g ∧
    g.terms.map (·.var) = [numbered 2, numbered 1, numbered 3] ∧
    (∀ u ∈ g.terms.map (·.var), ∀ v ∈ g.terms.map (·.var),
      g.place u < g.place v ↔ crowdedFunction.nonzeroPlace u < crowdedFunction.nonzeroPlace v) ∧
    KeepsOrder crowdedFunction g := by
  have hnormal : crowdedFunction.normalized? = some ⟨[⟨numbered 2, .int 4⟩,
      ⟨numbered 1, .real 2.0⟩, ⟨numbered 3, .bool true⟩], 7.0⟩ := by decide +kernel
  obtain ⟨hplaces, hkeeps⟩ := normalized?_ordered hnormal
  refine ⟨_, hnormal, rfl, hplaces, hkeeps fun v hv => ?_⟩
  simp only [List.map_cons, List.map_nil, List.mem_cons, List.not_mem_nil, or_false] at hv
  rcases hv with rfl | rfl | rfl
  · exact ⟨⟨numbered 2, .int 3⟩, by decide +kernel, by decide +kernel⟩
  · exact ⟨⟨numbered 1, .real 2.0⟩, by decide +kernel, by decide +kernel⟩
  · exact ⟨⟨numbered 3, .bool true⟩, by decide +kernel, by decide +kernel⟩

/-- The first term of the first variable has the factor zero. -/
def lateFunction : LinearFunction Float :=
  ⟨[⟨numbered 0, .real 0.0⟩, ⟨numbered 1, .real 1.0⟩, ⟨numbered 0, .real 1.0⟩], 0.0⟩

/-- First occurrences do not tell the order of the normal form. -/
theorem not_keepsOrder_lateFunction :
    ∃ g, lateFunction.normalized? = some g ∧ ¬ KeepsOrder lateFunction g := by
  have hnormal : lateFunction.normalized? = some ⟨[⟨numbered 1, .real 1.0⟩,
      ⟨numbered 0, .real 1.0⟩], 0.0⟩ := by decide +kernel
  refine ⟨_, hnormal, fun hkeeps => ?_⟩
  -- The variable 0 has the first term, and comes last.
  have hlt := hkeeps (numbered 0) (by simp) (numbered 1) (by simp) (by decide +kernel)
  exact absurd hlt (by decide +kernel)

end LinearProgram.LinearFunction
