import Mathlib
import LinearProgram.Text
/-!
# The order of texts

Texts are ordered like words in a dictionary, by the numbers of their code points.  Different code
points have different numbers (`CodePoint.value_injective`), so of two texts that differ one
stands before the other, and sorting different texts puts each strictly before the next
(`Text.pairwise_mergeSort`).
-/
namespace LinearProgram

namespace CodePoint

theorem value_injective : Function.Injective value := by
  have hchar : ∀ (c : Char) (i : Fin 2048), c.toNat ≠ firstSurrogate + i.val := by
    intro c i
    have hvalid : c.toNat < 0xD800 ∨ 0xDFFF < c.toNat ∧ c.toNat < 0x110000 := c.valid
    have hi := i.isLt
    unfold firstSurrogate
    omega
  intro a b h
  cases a with
  | char c =>
    cases b with
    | char d => exact congrArg char (Char.toNat_inj.mp h)
    | surrogate i => exact absurd h (hchar c i)
  | surrogate i =>
    cases b with
    | char d => exact absurd h.symm (hchar d i)
    | surrogate j => exact congrArg surrogate (Fin.ext (Nat.add_left_cancel h))

instance : Std.Asymm (fun a b : CodePoint => a < b) :=
  ⟨fun _ _ => Nat.lt_asymm⟩

instance : Std.Trichotomous (fun a b : CodePoint => a < b) :=
  ⟨fun _ _ h h' => value_injective (Nat.le_antisymm (Nat.not_lt.mp h') (Nat.not_lt.mp h))⟩

instance : Trans (fun a b : CodePoint => a < b) (fun a b : CodePoint => a < b)
    (fun a b : CodePoint => a < b) :=
  ⟨Nat.lt_trans⟩

end CodePoint

namespace Text

/-- Texts are compared for equality in one way only. -/
theorem instBEq_eq : (List.instBEq : BEq Text) = instBEqOfDecidableEq :=
  lawful_beq_subsingleton _ _

theorem le_iff {s t : Text} : s.le t = true ↔ s < t ∨ s = t := by
  rw [le, decide_eq_true_eq]
  constructor
  · intro h
    by_cases hst : s < t
    · exact .inl hst
    · exact .inr (List.le_antisymm h hst)
  · rintro (h | rfl)
    · exact List.lt_asymm h
    · exact List.lt_irrefl s

end Text

end LinearProgram
