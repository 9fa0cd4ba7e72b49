import Mathlib
import LinearProgram.Mps.Batch
/-!
# What a batch hands on

A batch loses no line, repeats none and keeps them in order: what it has handed on, followed by
what waits, is what was added (`flatten_handed`).  Fewer lines wait than its capacity
(`hasRoom_after`), so a line that fills the batch makes a group of exactly this many, whatever
the capacity is, and flushes in between do not change that (`length_of_mem_append`).

## How the proof goes

Both are invariants of a single action (`flatten_act`, `hasRoom_act`), carried along the actions
by induction.
-/
namespace LinearProgram.Mps.Batch

variable {α : Type}

/-! ## One action -/

section

variable (b : Batch α)

/-- The lines that are written together. -/
def groupSize : Int :=
  max 1 b.capacity

/-- Fewer lines wait than are written together. -/
def HasRoom : Prop :=
  (b.lines.length : Int) < b.groupSize

/-- The lines that an action adds. -/
def Action.added : Action α → List α
  | append line => [line]
  | flush => []

/-- A flush hands on all that waits, as one group if anything does. -/
theorem flatten_flush : b.flush.1.flatten = b.lines := by
  unfold flush
  split_ifs with h
  · exact (List.isEmpty_iff.mp h).symm
  · simp

theorem lines_flush : b.flush.2.lines = [] := by
  unfold flush
  split_ifs with h
  · exact List.isEmpty_iff.mp h
  · rfl

/-- A line is kept, or it fills the batch and is handed on with all that waited. -/
theorem append_eq (line : α) : b.append line =
    if b.capacity ≤ b.lines.length + 1 then ([b.lines ++ [line]], empty b.capacity)
    else ([], ⟨b.capacity, b.lines ++ [line]⟩) := by
  simp [append, flush]

/-- An added line is handed on or kept, after those that waited. -/
theorem flatten_append (line : α) :
    (b.append line).1.flatten ++ (b.append line).2.lines = b.lines ++ [line] := by
  rw [append_eq]
  split_ifs <;> simp [empty]

theorem flatten_act (a : Action α) :
    (b.act a).1.flatten ++ (b.act a).2.lines = b.lines ++ a.added := by
  cases a with
  | append line => exact b.flatten_append line
  | flush => rw [act, flatten_flush, lines_flush, Action.added]

theorem capacity_act (a : Action α) : (b.act a).2.capacity = b.capacity := by
  cases a with
  | append line =>
    rw [act, append_eq]
    split_ifs <;> rfl
  | flush =>
    unfold act flush
    split_ifs <;> rfl

theorem hasRoom_empty (capacity : Int) : (empty capacity : Batch α).HasRoom :=
  lt_of_lt_of_le Int.one_pos (le_max_left 1 capacity)

/-- No action fills a batch and leaves it so. -/
theorem hasRoom_act (a : Action α) : (b.act a).2.HasRoom := by
  have hempty : ∀ b' : Batch α, b'.lines = [] → b'.HasRoom := by
    intro b' hlines
    rw [HasRoom, hlines]
    exact hasRoom_empty b'.capacity
  cases a with
  | append line =>
    rw [act, append_eq]
    split_ifs with hfull
    · exact hasRoom_empty b.capacity
    · simp only [HasRoom, groupSize, List.length_append, List.length_singleton]
      omega
  | flush => exact hempty _ b.lines_flush

variable {b}

/-- **What an added line hands on is one group, of the size of the batch.** -/
theorem length_of_mem_append (h : b.HasRoom) {line : α} {g : List α}
    (hg : g ∈ (b.append line).1) : (b.append line).1 = [g] ∧ (g.length : Int) = b.groupSize := by
  rw [append_eq] at hg ⊢
  unfold HasRoom groupSize at *
  split_ifs at hg ⊢ with hfull
  · obtain rfl := List.mem_singleton.mp hg
    refine ⟨rfl, ?_⟩
    simp only [List.length_append, List.length_singleton]
    omega
  · cases hg

end

/-! ## Actions in order -/

/-- The groups that actions hand on, in order. -/
def handed (b : Batch α) (as : List (Action α)) : List (List α) :=
  (b.run as).flatMap (·.1)

/-- The batch as it is after actions. -/
def after (b : Batch α) (as : List (Action α)) : Batch α :=
  ((b.run as).getLast?.map (·.2)).getD b

theorem handed_cons (b : Batch α) (a : Action α) (as : List (Action α)) :
    b.handed (a :: as) = (b.act a).1 ++ (b.act a).2.handed as := rfl

theorem after_cons (b : Batch α) (a : Action α) (as : List (Action α)) :
    b.after (a :: as) = (b.act a).2.after as := by
  cases as with
  | nil => rfl
  | cons a' as =>
    unfold after
    rw [run, List.getLast?_cons, run]
    simp

/-- **Nothing is lost, repeated or out of order.** -/
theorem flatten_handed (b : Batch α) (as : List (Action α)) :
    (b.handed as).flatten ++ (b.after as).lines = b.lines ++ as.flatMap Action.added := by
  induction as generalizing b with
  | nil => simp [handed, after, run]
  | cons a as ih =>
    rw [handed_cons, after_cons, List.flatten_append, List.append_assoc, ih, ← List.append_assoc,
      flatten_act, List.flatMap_cons, List.append_assoc]

theorem capacity_after (b : Batch α) (as : List (Action α)) :
    (b.after as).capacity = b.capacity := by
  induction as generalizing b with
  | nil => rfl
  | cons a as ih => rw [after_cons, ih, capacity_act]

theorem hasRoom_after {b : Batch α} (h : b.HasRoom) (as : List (Action α)) :
    (b.after as).HasRoom := by
  induction as generalizing b with
  | nil => exact h
  | cons a as ih =>
    rw [after_cons]
    exact ih (b.hasRoom_act a)

/-- Every answer of a run is that of an action on the batch as the actions before left it. -/
theorem getElem?_run (b : Batch α) (as : List (Action α)) (i : Nat) :
    (b.run as)[i]? = as[i]?.map (b.after (as.take i)).act := by
  induction as generalizing b i with
  | nil => simp [run]
  | cons a as ih =>
    cases i with
    | zero => rfl
    | succ i => rw [run, List.getElem?_cons_succ, ih, List.getElem?_cons_succ, List.take_succ_cons,
        after_cons]

/-! ## Batches of texts -/

theorem join_flatten (gs : List (List String)) :
    String.join gs.flatten = String.join (gs.map String.join) := by
  induction gs with
  | nil => rfl
  | cons g gs ih => rw [List.flatten_cons, String.join_append, ih, List.map_cons, String.join_cons]

/-- What holds of an empty batch after any actions.  Every group is written as one text. -/
structure Keeps (capacity : Int) (as : List (Action String)) : Prop where
  run : ∀ i, ((empty capacity).run as)[i]? = as[i]?.map ((empty capacity).after (as.take i)).act
  lines : ((empty capacity).handed as).flatten ++ ((empty capacity).after as).lines =
    as.flatMap Action.added
  texts : String.join (((empty capacity).handed as).map String.join) ++
    String.join ((empty capacity).after as).lines = String.join (as.flatMap Action.added)
  waiting : (((empty capacity).after as).lines.length : Int) < max 1 capacity
  append : ∀ line, ∀ g ∈ (((empty capacity).after as).append line).1,
    (((empty capacity).after as).append line).1 = [g] ∧ (g.length : Int) = max 1 capacity
  flush_lines : ((empty capacity).after as).flush.2.lines = []
  flush_nothing : ((empty capacity).after as).lines = [] →
    ((empty capacity).after as).flush.1 = []

theorem keeps (capacity : Int) (as : List (Action String)) : Keeps capacity as := by
  have hlines := flatten_handed (empty capacity) as
  have hroom := hasRoom_after (hasRoom_empty capacity) as
  have hsize : ((empty capacity).after as).groupSize = max 1 capacity := by
    rw [groupSize, capacity_after, empty]
  refine ⟨getElem?_run _ as, hlines, ?_, hsize ▸ hroom, ?_, lines_flush _, ?_⟩
  · rw [← join_flatten, ← String.join_append, hlines]
    rfl
  · intro line g hg
    rw [← hsize]
    exact length_of_mem_append hroom hg
  · intro hempty
    simp [flush, hempty]

end LinearProgram.Mps.Batch
