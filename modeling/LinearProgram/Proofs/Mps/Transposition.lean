import Mathlib
import LinearProgram.Proofs.Site
/-!
# The columns are the rows, transposed

The terms of a model stand by rows, and its entries are collected by columns.  Nothing is lost,
repeated or made up, and the order is that of the rows: `Model.IsTransposed` says what holds of the
collected columns, and `columnEntries_isTransposed` that it does for every model.

The columns stand in the order of their first entries, those of the objective last, whereas
`Model.vars` has the variables of the objective first.

## How the proof goes

The columns are what one pass over the entries leaves (`group_append_eq_foldl`).  A step adds its
pair to what the columns list and nothing else (`perm_recorded`), and so a run lists the pairs that
it met (`perm_foldl_recorded`).  The order within a column is that of the rows (`entriesFor_eq`),
and the order of the columns comes from the places of the terms.
-/
namespace LinearProgram

/-! ## Recording values under keys -/

section

variable {κ α : Type}

/-- The pairs that columns list. -/
def listed (columns : List (κ × List α)) : List (κ × α) :=
  columns.flatMap fun g => g.2.map (g.1, ·)

@[simp] theorem listed_cons (g : κ × List α) (gs : List (κ × List α)) :
    listed (g :: gs) = g.2.map (g.1, ·) ++ listed gs := rfl

variable [DecidableEq κ]

/-- The columns after one more pair: its value goes to the end of the column of its key, and a new
key opens a column behind all others. -/
def recorded : List (κ × List α) → κ × α → List (κ × List α)
  | [], p => [(p.1, [p.2])]
  | g :: gs, p => if g.1 = p.1 then (g.1, g.2 ++ [p.2]) :: gs else g :: recorded gs p

/-- A step adds its pair to what is listed. -/
theorem perm_recorded (columns : List (κ × List α)) (p : κ × α) :
    (listed (recorded columns p)).Perm (listed columns ++ [p]) := by
  induction columns with
  | nil => exact List.Perm.refl _
  | cons g gs ih =>
    rw [recorded]
    split_ifs with hkey
    · rw [listed_cons, listed_cons, List.map_append, List.append_assoc, List.append_assoc, hkey]
      exact List.perm_append_comm.append_left _
    · rw [listed_cons, listed_cons, List.append_assoc]
      exact ih.append_left _

/-- A run lists the pairs that it met. -/
theorem perm_foldl_recorded (ps : List (κ × α)) (columns : List (κ × List α)) :
    (listed (ps.foldl recorded columns)).Perm (listed columns ++ ps) := by
  induction ps generalizing columns with
  | nil => rw [List.foldl_nil, List.append_nil]
  | cons p ps ih =>
    rw [List.append_cons]
    exact (ih _).trans ((perm_recorded columns p).append_right ps)

/-- One more pair is one more step. -/
theorem group_concat : ∀ (ps : List (κ × α)) (p : κ × α),
    group (ps ++ [p]) = recorded (group ps) p
  | [], (k, a) => group_cons k a []
  | (k, a) :: ps, p => by
    rw [List.cons_append, group_cons, group_cons, recorded, valuesOf_append, valuesOf_cons,
      List.filter_append]
    split_ifs with hkey hkey' hkey'
    · simp [hkey]
    · exact absurd hkey.symm hkey'
    · exact absurd hkey'.symm hkey
    · have hlast : [p].filter (·.1 ≠ k) = [p] := by simp [hkey]
      rw [hlast, group_concat, valuesOf_nil, List.append_nil]
termination_by ps => ps.length
decreasing_by exact Nat.lt_succ_of_le (List.length_filter_le _ _)

/-- **Collecting values by key** is recording them one after the other. -/
theorem group_append_eq_foldl (ps qs : List (κ × α)) :
    group (ps ++ qs) = qs.foldl recorded (group ps) := by
  induction qs generalizing ps with
  | nil => rw [List.append_nil, List.foldl_nil]
  | cons q qs ih => rw [List.append_cons, ih, group_concat, List.foldl_cons]

theorem perm_listed_group (ps : List (κ × α)) : (listed (group ps)).Perm ps := by
  have hrun := group_append_eq_foldl [] ps
  rw [List.nil_append] at hrun
  rw [hrun]
  exact perm_foldl_recorded ps []

end

/-! ## The entries of a model, row by row -/

variable {R : Type} [Scalar R]

/-- Whether a term makes an entry. -/
def Term.isEntry (t : Term R) : Bool :=
  !t.factor.isZero

theorem LinearFunction.count_entries [DecidableEq R] (f : LinearFunction R) (row : Row)
    (v : Variable R) (x : Number R) : (f.entries row).count (v, row, x) =
      if x.isZero then 0 else f.terms.count ⟨v, x⟩ := by
  have hinj : Function.Injective fun t : Term R => (t.var, row, t.factor) := by
    rintro ⟨u, y⟩ ⟨w, z⟩ heq
    simpa using heq
  rw [entries, nonzeroTerms]
  refine (List.count_map_of_injective _ _ hinj ⟨v, x⟩).trans ?_
  split_ifs with hzero
  · exact List.count_eq_zero_of_not_mem fun hmem => by simp [hzero] at hmem
  · exact List.count_filter (by simpa using hzero)

namespace Model

variable {m : Model R}

theorem entries_eq (m : Model R) :
    m.entries = (m.constraintRows ++ m.objectiveRow).flatMap fun p => p.2.entries p.1 := by
  rw [entries, constraintRows, objectiveRow, List.flatMap_append, List.flatMap_map,
    List.flatMap_map]

theorem vars_entries (m : Model R) : m.entries.map (·.1) =
    ((m.constraintRows ++ m.objectiveRow).flatMap fun p =>
      p.2.terms.filter Term.isEntry).map (·.var) := by
  simp only [entries_eq, List.map_flatMap, LinearFunction.entries, List.map_map]
  rfl

variable [DecidableEq R]

theorem entriesFor_eq (m : Model R) (v : Variable R) : m.entriesFor v =
    (m.constraintRows ++ m.objectiveRow).flatMap fun p => p.2.entriesFor p.1 v := by
  rw [entriesFor, constraintRows, objectiveRow, List.flatMap_append, List.flatMap_map,
    List.flatMap_map]

/-- An entry occurs as often as its term does in the function of its row. -/
theorem count_entries (m : Model R) (row : Row) (v : Variable R) (x : Number R) :
    m.entries.count (v, row, x) =
      if x.isZero then 0 else (m.function? row).elim 0 (·.terms.count ⟨v, x⟩) := by
  have hrow : ∀ {p : Row × LinearFunction R}, (v, row, x) ∈ p.2.entries p.1 → p.1 = row := by
    intro p hmem
    obtain ⟨t, _, heq⟩ := List.mem_map.mp hmem
    exact congrArg (·.2.1) heq
  rw [entries_eq]
  cases hf : m.function? row with
  | none =>
    rw [Option.elim_none, ite_self, List.count_eq_zero]
    intro hmem
    obtain ⟨p, hp, hmem⟩ := List.mem_flatMap.mp hmem
    rw [mem_rowsLast_iff, hrow hmem, hf] at hp
    cases hp
  | some f =>
    rw [count_flatMap_of_nodup m.nodup_rowsLast (mem_rowsLast_iff (p := (row, f)).mpr hf)
      fun p _ hne hmem => hne (hrow hmem)]
    exact f.count_entries row v x

/-! ## Within a column -/

theorem row_of_mem_entriesFor {v : Variable R} {p : Row × LinearFunction R} {e : Row × Number R}
    (he : e ∈ p.2.entriesFor p.1 v) : e.1 = p.1 := by
  obtain ⟨t, _, rfl⟩ := List.mem_map.mp he
  rfl

theorem mem_keys_columnEntries {v : Variable R} :
    v ∈ m.columnEntries.map (·.1) ↔ m.hasEntry v = true := by
  rw [columnEntries, keys_group, List.mem_eraseDups, ← Bool.not_eq_false, ← Bool.not_eq_true',
    ← entriesFor_isEmpty, ← entriesOf_eq, List.isEmpty_iff, entriesOf, valuesOf_eq_nil_iff, not_not]

theorem entries_of_mem_columnEntries {g : Variable R × List (Row × Number R)}
    (hg : g ∈ m.columnEntries) : g.2 = m.entriesFor g.1 := by
  rw [← entriesOf_eq]
  exact (mem_group.mp hg).2

theorem pairwise_entriesFor (m : Model R) (v : Variable R) :
    (m.entriesFor v).Pairwise fun d e => d.1.objectiveLast ≤ e.1.objectiveLast := by
  rw [entriesFor_eq]
  refine List.pairwise_flatMap.mpr ⟨fun p _ => ?_, m.pairwise_objectiveLast.imp fun {p q} hlt => ?_⟩
  · refine List.pairwise_of_forall_mem_list fun d hd e he => ?_
    rw [row_of_mem_entriesFor hd, row_of_mem_entriesFor he]
  · intro d hd e he
    rw [row_of_mem_entriesFor hd, row_of_mem_entriesFor he]
    exact hlt.le

/-- The entries of a variable in one row are its terms there. -/
theorem filter_entriesFor {row : Row} {f : LinearFunction R} (hf : m.function? row = some f)
    (v : Variable R) : (m.entriesFor v).filter (·.1 = row) = f.entriesFor row v := by
  rw [entriesFor_eq, filter_flatMap_of_nodup m.nodup_rowsLast
    (mem_rowsLast_iff (p := (row, f)).mpr hf)]
  · exact List.filter_eq_self.mpr fun e he => by
      simpa using row_of_mem_entriesFor (p := (row, f)) he
  · intro p _ hne e he
    simpa [row_of_mem_entriesFor he] using hne

/-! ## The transposition -/

/-- Columns of a model that hold its rows, transposed. -/
structure IsTransposed (m : Model R) (columns : List (Variable R × List (Row × Number R))) :
    Prop where
  /-- The terms with a factor other than zero are listed as often as they occur, and no others. -/
  count : ∀ row v x, (listed columns).count (v, row, x) =
    if x.isZero then 0 else (m.function? row).elim 0 (·.terms.count ⟨v, x⟩)
  nodup : (columns.map (·.1)).Nodup
  mem_iff : ∀ v, v ∈ columns.map (·.1) ↔ ∃ t ∈ m.terms, t.var = v ∧ t.factor.isZero = false
  subset : columns.map (·.1) ⊆ m.vars
  /-- The rows ascend along a column, with the objective last. -/
  ascending : ∀ g ∈ columns, g.2.Pairwise fun d e => d.1.objectiveLast ≤ e.1.objectiveLast
  /-- The terms of one row are listed in their order. -/
  inRow : ∀ g ∈ columns, ∀ row f, m.function? row = some f →
    (g.2.filter (·.1 = row)).map (·.2) =
      (f.terms.filter fun t => t.var = g.1 && !t.factor.isZero).map (·.factor)
  /-- The columns stand in the order of their first entries, those of the objective last. -/
  ordered : ∀ u ∈ columns.map (·.1), ∀ v ∈ columns.map (·.1),
    ((columns.map (·.1)).idxOf u < (columns.map (·.1)).idxOf v ↔
      m.ComesFirst Row.objectiveLast Term.isEntry u v)

/-- **The collected entries are the rows of the model, transposed**. -/
theorem columnEntries_isTransposed (m : Model R) : m.IsTransposed m.columnEntries where
  count row v x := by
    rw [← count_entries]
    exact (perm_listed_group m.entries).count_eq _
  nodup := nodup_keys_group m.entries
  mem_iff v := by
    rw [mem_keys_columnEntries, hasEntry, List.any_eq_true]
    simp
  subset := by
    intro v hv
    obtain ⟨t, ht, hentry⟩ := List.any_eq_true.mp (mem_keys_columnEntries.mp hv)
    rw [Bool.and_eq_true, decide_eq_true_eq] at hentry
    exact mem_vars_iff.mpr ⟨t, ht, hentry.1⟩
  ascending g hg := by
    rw [entries_of_mem_columnEntries hg]
    exact m.pairwise_entriesFor g.1
  inRow g hg row f hf := by
    rw [entries_of_mem_columnEntries hg, filter_entriesFor hf, LinearFunction.entriesFor,
      List.map_map]
    rfl
  ordered u hu v _ := by
    have hu' : u ∈ m.entries.map (·.1) := by
      rwa [columnEntries, keys_group, List.mem_eraseDups] at hu
    rw [vars_entries] at hu'
    rw [columnEntries, keys_group, idxOf_eraseDups_lt_iff, vars_entries,
      idxOf_lt_iff_comesFirst (fun _ => mem_rowsLast_iff) m.pairwise_objectiveLast hu']

end Model

end LinearProgram
