/-!
# Writing in batches

A `Batch` collects lines and hands them on together: as soon as it holds as many
as its capacity, or when it is flushed.  `Batch.append` and `Batch.flush` answer with the
groups of lines handed on, at most one, and the batch as it is afterwards.
-/
namespace LinearProgram.Mps

/-- Lines waiting to be written. -/
structure Batch (α : Type) where
  /-- The number of lines that are written together; less than one counts as one. -/
  capacity : Int
  lines : List α
deriving DecidableEq, Repr

namespace Batch

variable {α : Type}

/-- A batch without lines. -/
def empty (capacity : Int) : Batch α :=
  ⟨capacity, []⟩

/-- Hands on the lines that are waiting, as one group. -/
def flush (b : Batch α) : List (List α) × Batch α :=
  if b.lines.isEmpty then ([], b) else ([b.lines], empty b.capacity)

/-- Adds a line, and hands all on when the capacity is reached. -/
def append (b : Batch α) (line : α) : List (List α) × Batch α :=
  let b' : Batch α := ⟨b.capacity, b.lines ++ [line]⟩
  if b.capacity ≤ b'.lines.length then b'.flush else ([], b')

/-- An action on a batch. -/
inductive Action (α : Type) where
  | append (line : α)
  | flush
deriving DecidableEq, Repr

/-- One action. -/
def act (b : Batch α) : Action α → List (List α) × Batch α
  | .append line => b.append line
  | .flush => b.flush

/-- Actions in order: what each one handed on, and the batch after it. -/
def run (b : Batch α) : List (Action α) → List (List (List α) × Batch α)
  | [] => []
  | a :: as =>
    let step := b.act a
    step :: run step.2 as

end Batch

/-- The capacity that files are written with. -/
def batchCapacity : Int := 500

end LinearProgram.Mps
