import Mathlib
import LinearProgram.InProcess.Result
import LinearProgram.Proofs.NormalForm
/-!
# Normalising twice

A function that is in normal form is not built anew (`NormalForm.unchanged`), and these are the
only ones: `normalForm?_eq_unchanged_iff`.  So the second of two passes finds every function as
the first one left it, and hands it back as it is.  No arithmetic is done on the way, and no law
of it is needed: factors may be NaN or infinite.

The solver in the process normalises whatever model it is given.  A model that was normalised
before it gets there makes the same program as it would have made itself, and the same answer.

## How the proof goes

A function is left alone or replaced by what merging makes of it, and which of the two depends
on whether it is in normal form (`normalForm?_eq_replaced`).  What merging makes is in normal
form (`isNormal_of_normalized?`), so it is left alone the next time; this is lifted to the
functions of a model place by place (`normalizes_self`).
-/
namespace LinearProgram

open LinearProgram.InProcess (Program Engine)

section

variable {R : Type} [Scalar R] [DecidableEq R]

/-! ## Functions -/

namespace LinearFunction

variable {f : LinearFunction R}

/-- Only a function in normal form stays as it is. -/
theorem normalForm?_eq_unchanged_iff : f.normalForm? = some .unchanged ↔ f.IsNormal := by
  refine ⟨fun h => ?_, IsNormal.normalForm?_eq⟩
  by_contra hnormal
  rw [normalForm?_eq_replaced hnormal] at h
  simp at h

theorem IsNormal.normalized?_eq (h : f.IsNormal) : f.normalized? = some f :=
  (normalized?_eq_merged? f).trans h.merged?_eq

end LinearFunction

/-! ## Models -/

namespace Model

variable {m n : Model R}

/-- A model whose functions are in normal form is its own normal form. -/
theorem normalizes_self (h : ∀ f ∈ m.functions, f.IsNormal) : m.Normalizes m where
  name := rfl
  objective := by
    cases ho : m.objective? with
    | none => exact .none
    | some o => exact .some ⟨(h _ (objective_mem_functions ho)).normalized?_eq, rfl⟩
  constraints := List.forall₂_same.mpr fun _ hc =>
    ⟨(h _ (function_mem_functions hc)).normalized?_eq, rfl, rfl, rfl⟩

theorem Normalizes.normalized?_eq (h : m.Normalizes n) : n.normalized? = some n :=
  normalized?_eq_some_iff.mpr (normalizes_self fun _ hf => h.isNormal hf)

end Model

/-- A model and its normal form are handed over as the same program, or fail alike. -/
theorem ofModel?_of_normalizes {m n : Model R} (h : m.Normalizes n) (available : Bool) :
    Program.ofModel? available n = Program.ofModel? available m := by
  rw [Program.ofModel?, Program.ofModel?, h.normalized?_eq, Model.normalized?_eq_some_iff.mpr h]

end

/-- A model and its normal form get the same answer, whatever the engine does. -/
theorem solve_of_normalizes {m n : Model Float} (h : m.Normalizes n) (engine : Engine) :
    InProcess.solve engine n = InProcess.solve engine m := by
  rw [InProcess.solve, InProcess.solve, ofModel?_of_normalizes h]

/-- **Normalising is a projection**: the functions that it leaves alone are those in normal form,
and whatever it makes it leaves alone.  The same holds of models, so for the solver in the
process it makes no difference whether a model was normalised before. -/
theorem normalizing_projects :
    (∀ f : LinearFunction Float, f.normalForm? = some .unchanged ↔ f.IsNormal) ∧
    (∀ f g : LinearFunction Float, f.normalized? = some g →
      g.normalForm? = some .unchanged ∧ g.normalized? = some g) ∧
    ∀ m n : Model Float, m.normalized? = some n →
      (∀ f ∈ n.functions, f.normalForm? = some .unchanged) ∧ n.normalized? = some n ∧
        (∀ available, Program.ofModel? available n = Program.ofModel? available m) ∧
        ∀ engine, InProcess.solve engine n = InProcess.solve engine m := by
  refine ⟨fun f => LinearFunction.normalForm?_eq_unchanged_iff, fun f g hg => ?_, fun m n hn => ?_⟩
  · have hnormal := LinearFunction.isNormal_of_normalized? hg
    exact ⟨hnormal.normalForm?_eq, hnormal.normalized?_eq⟩
  · have hnormalizes := Model.normalized?_eq_some_iff.mp hn
    exact ⟨fun f hf => (hnormalizes.isNormal hf).normalForm?_eq, hnormalizes.normalized?_eq,
      ofModel?_of_normalizes hnormalizes, solve_of_normalizes hnormalizes⟩

/-- A variable with NaN as its factor, one that cancels out, and one that repeats. -/
def unsettledModel : Model Float :=
  let x : Variable Float := ⟨0, Text.ofString "x", .real, none, none⟩
  let y : Variable Float := ⟨1, Text.ofString "y", .integer, some (.int 0), none⟩
  let z : Variable Float := ⟨2, Text.ofString "z", .real, none, some (.real 4.0)⟩
  { name := Text.ofString "unsettled"
    objective? := some ⟨⟨[⟨y, .int 2⟩, ⟨x, .real Decimal.nan⟩, ⟨y, .int (-2)⟩], 1.0⟩, .maximize⟩
    constraints := [
      ⟨⟨⟨[⟨z, .real 1.0⟩, ⟨x, .real 0.0⟩, ⟨z, .bool true⟩], 0.0⟩, .gte, 3.0⟩,
        some (Text.ofString "row")⟩] }

theorem normalizing_projects_unsettledModel : ∃ n, unsettledModel.normalized? = some n ∧
    n ≠ unsettledModel ∧ n.normalized? = some n ∧
    (∀ available, Program.ofModel? available n = Program.ofModel? available unsettledModel) ∧
    (∀ engine, InProcess.solve engine n = InProcess.solve engine unsettledModel) ∧
    ∀ f ∈ n.functions, f.normalForm? = some .unchanged ∧ f.IsNormal := by
  obtain ⟨n, hn⟩ : ∃ n, unsettledModel.normalized? = some n :=
    Option.isSome_iff_exists.mp (by decide +kernel)
  have hchanged : unsettledModel.normalized? ≠ some unsettledModel := by decide +kernel
  obtain ⟨hunchanged, _, hmodels⟩ := normalizing_projects
  obtain ⟨hfunctions, hfixed, hprograms, hanswers⟩ := hmodels unsettledModel n hn
  refine ⟨n, hn, fun e => hchanged (hn.trans (congrArg some e)), hfixed, hprograms, hanswers,
    fun f hf => ?_⟩
  exact ⟨hfunctions f hf, (hunchanged f).mp (hfunctions f hf)⟩

end LinearProgram
