import Mathlib
import LinearProgram.Proofs.Mps.Entry
/-!
# The places of the terms of a model

A term stands in a row, at a position of the function there (`Site`).  A pass over the model may
take the rows with the objective first, as variables are numbered, or with the objective last, as
the model file lists entries.  Each way of ranking the rows makes an order of the places.

A pass may also leave out terms.  Which of two variables it meets first is told by the places of
their terms that count: `idxOf_lt_iff_comesFirst`.

## How the proof goes

The terms that a pass meets are listed with their places (`sited`).  As the rows ascend, so do the
places (`pairwise_sited`), and in a list with ascending keys the first occurrence of a value is the
one with the least key (`idxOf_lt_iff_of_pairwise`).
-/
namespace LinearProgram

/-! ## Lists with ascending keys -/

/-- Where keys ascend, one value comes before another if it stands under a key that is less than
all of the other's. -/
theorem idxOf_lt_iff_of_pairwise {κ α : Type} [LinearOrder κ] [DecidableEq α] {u v : α}
    {ps : List (κ × α)} (h : ps.Pairwise fun p q => p.1 < q.1) (hu : u ∈ ps.map (·.2)) :
    (ps.map (·.2)).idxOf u < (ps.map (·.2)).idxOf v ↔
      ∃ k, (k, u) ∈ ps ∧ ∀ j, (j, v) ∈ ps → k < j := by
  induction ps with
  | nil => cases hu
  | cons p ps ih =>
    obtain ⟨k, a⟩ := p
    obtain ⟨hfirst, hrest⟩ := List.pairwise_cons.mp h
    rw [List.map_cons]
    by_cases hv : a = v
    · -- The other value stands here, and nothing stands before it.
      subst hv
      simp only [List.idxOf_cons_self, Nat.not_lt_zero, false_iff, not_exists, not_and]
      intro j hj hless
      have hlt := hless k List.mem_cons_self
      rcases List.mem_cons.mp hj with heq | hj
      · cases heq
        exact absurd hlt (lt_irrefl k)
      · exact absurd (hfirst _ hj) (not_lt.mpr hlt.le)
    · by_cases hau : a = u
      · subst hau
        rw [List.idxOf_cons_self, List.idxOf_cons_ne _ hv]
        simp only [Nat.succ_pos, true_iff]
        refine ⟨k, List.mem_cons_self, ?_⟩
        intro j hj
        rcases List.mem_cons.mp hj with heq | hj
        · cases heq
          exact absurd rfl hv
        · exact hfirst _ hj
      · have hmem : u ∈ ps.map (·.2) := (List.mem_cons.mp hu).resolve_left (Ne.symm hau)
        rw [List.idxOf_cons_ne _ hv, List.idxOf_cons_ne _ hau, Nat.succ_lt_succ_iff,
          ih hrest hmem]
        simp [Ne.symm hv, Ne.symm hau]

theorem pairwise_zipIdx_lt {α : Type} (xs : List α) :
    xs.zipIdx.Pairwise fun p q => p.2 < q.2 := by
  have hpositions : (xs.zipIdx.map (·.2)).Pairwise (· < ·) := by
    rw [List.zipIdx_map_snd]
    exact List.pairwise_lt_range'
  exact List.pairwise_map.mp hpositions

/-! ## Places -/

/-- The place of a term: its row, and its position in the function of the row. -/
structure Site where
  row : Row
  position : Nat
deriving DecidableEq, Repr

/-- The order of rows with the objective before all constraints. -/
def Row.objectiveFirst : Row → WithBot ℕ
  | .objective => ⊥
  | .constraint k => k

/-- The order of rows with the objective after all constraints. -/
def Row.objectiveLast : Row → WithTop ℕ
  | .objective => ⊤
  | .constraint k => k

/-- The order of places that goes by rows first. -/
def Site.rank {ρ : Type} (rank : Row → ρ) (s : Site) : ρ ×ₗ ℕ :=
  toLex (rank s.row, s.position)

variable {R : Type}

namespace Model

/-- The term at a place. -/
def term? (m : Model R) (s : Site) : Option (Term R) :=
  (m.function? s.row).bind (·.terms[s.position]?)

/-- A variable has a term at a place, and the term counts. -/
def HasAt (m : Model R) (counts : Term R → Bool) (v : Variable R) (s : Site) : Prop :=
  ∃ t, m.term? s = some t ∧ counts t = true ∧ t.var = v

/-- The first variable has a term that counts before all those of the second one. -/
def ComesFirst {ρ : Type} [LinearOrder ρ] (m : Model R) (rank : Row → ρ) (counts : Term R → Bool)
    (u v : Variable R) : Prop :=
  ∃ s, m.HasAt counts u s ∧ ∀ s', m.HasAt counts v s' → s.rank rank < s'.rank rank

/-! ## Passes over a model -/

/-- The objective with its function, if there is one. -/
def objectiveRow (m : Model R) : List (Row × LinearFunction R) :=
  m.objective?.toList.map fun o => (.objective, o.function)

/-- The rows of the constraints with their functions. -/
def constraintRows (m : Model R) : List (Row × LinearFunction R) :=
  m.constraints.zipIdx.map fun p => (.constraint p.2, p.1.constraint.function)

variable {m : Model R}

theorem mem_objectiveRow_iff {p : Row × LinearFunction R} :
    p ∈ m.objectiveRow ↔ p.1 = .objective ∧ m.function? p.1 = some p.2 := by
  obtain ⟨row, f⟩ := p
  simp only [objectiveRow, List.mem_map, Option.mem_toList, Prod.mk.injEq]
  constructor
  · rintro ⟨o, ho, rfl, rfl⟩
    exact ⟨rfl, by simp [function?, Option.mem_def.mp ho]⟩
  · rintro ⟨rfl, hf⟩
    obtain ⟨o, ho, rfl⟩ := Option.map_eq_some_iff.mp hf
    exact ⟨o, ho, rfl, rfl⟩

theorem mem_constraintRows_iff {p : Row × LinearFunction R} :
    p ∈ m.constraintRows ↔ p.1 ≠ .objective ∧ m.function? p.1 = some p.2 := by
  obtain ⟨row, f⟩ := p
  simp only [constraintRows, List.mem_map, List.mem_zipIdx_iff_getElem?, Prod.mk.injEq]
  constructor
  · rintro ⟨⟨c, k⟩, hk, rfl, rfl⟩
    exact ⟨Row.noConfusion, by simp [function?, hk]⟩
  · rintro ⟨hrow, hf⟩
    cases row with
    | objective => exact absurd rfl hrow
    | constraint k =>
      obtain ⟨c, hk, rfl⟩ := Option.map_eq_some_iff.mp hf
      exact ⟨(c, k), hk, rfl, rfl⟩

theorem mem_rows_iff {p : Row × LinearFunction R} :
    p ∈ m.objectiveRow ++ m.constraintRows ↔ m.function? p.1 = some p.2 := by
  rw [List.mem_append, mem_objectiveRow_iff, mem_constraintRows_iff, ← or_and_right]
  simp [em]

theorem mem_rowsLast_iff {p : Row × LinearFunction R} :
    p ∈ m.constraintRows ++ m.objectiveRow ↔ m.function? p.1 = some p.2 := by
  rw [← mem_rows_iff, List.mem_append, List.mem_append, or_comm]

theorem pairwise_objectiveRow (r : Row × LinearFunction R → Row × LinearFunction R → Prop) :
    m.objectiveRow.Pairwise r := by
  unfold objectiveRow
  cases m.objective? <;> simp

/-- Ranks that ascend with the position ascend along the constraints. -/
theorem pairwise_constraintRows {ρ : Type} [LinearOrder ρ] {rank : Row → ρ}
    (h : StrictMono fun k => rank (.constraint k)) :
    m.constraintRows.Pairwise fun p q => rank p.1 < rank q.1 := by
  rw [constraintRows, List.pairwise_map]
  exact (pairwise_zipIdx_lt m.constraints).imp fun hlt => h hlt

theorem pairwise_objectiveFirst (m : Model R) : (m.objectiveRow ++ m.constraintRows).Pairwise
    fun p q => p.1.objectiveFirst < q.1.objectiveFirst := by
  refine List.pairwise_append.mpr ⟨pairwise_objectiveRow _,
    pairwise_constraintRows fun _ _ hlt => WithBot.coe_lt_coe.mpr hlt, ?_⟩
  intro p hp q hq
  obtain ⟨hp, _⟩ := mem_objectiveRow_iff.mp hp
  obtain ⟨hq, _⟩ := mem_constraintRows_iff.mp hq
  rw [hp]
  cases hrow : q.1 with
  | objective => exact absurd hrow hq
  | constraint k => exact WithBot.bot_lt_coe k

theorem pairwise_objectiveLast (m : Model R) : (m.constraintRows ++ m.objectiveRow).Pairwise
    fun p q => p.1.objectiveLast < q.1.objectiveLast := by
  refine List.pairwise_append.mpr ⟨pairwise_constraintRows fun _ _ hlt =>
    WithTop.coe_lt_coe.mpr hlt, pairwise_objectiveRow _, ?_⟩
  intro p hp q hq
  obtain ⟨hp, _⟩ := mem_constraintRows_iff.mp hp
  obtain ⟨hq, _⟩ := mem_objectiveRow_iff.mp hq
  rw [hq]
  cases hrow : p.1 with
  | objective => exact absurd hrow hp
  | constraint k => exact WithTop.coe_lt_top k

theorem nodup_rowsLast (m : Model R) :
    ((m.constraintRows ++ m.objectiveRow).map (·.1)).Nodup :=
  List.pairwise_map.mpr (m.pairwise_objectiveLast.imp fun hlt heq => by simp [heq] at hlt)

end Model

/-- The terms of a function that count, with their places. -/
def LinearFunction.sited (counts : Term R → Bool) (p : Row × LinearFunction R) :
    List (Site × Term R) :=
  (p.2.terms.zipIdx.map fun q => ((⟨p.1, q.2⟩ : Site), q.1)).filter (counts ·.2)

open LinearFunction (sited)

theorem map_snd_sited (counts : Term R → Bool) (p : Row × LinearFunction R) :
    (sited counts p).map (·.2) = p.2.terms.filter counts := by
  have hterms : (p.2.terms.zipIdx.map fun q => ((⟨p.1, q.2⟩ : Site), q.1)).map (·.2) =
      p.2.terms := by
    rw [List.map_map]
    exact List.zipIdx_map_fst 0 _
  conv_rhs => rw [← hterms, List.filter_map]
  rfl

theorem mem_sited_iff {counts : Term R → Bool} {p : Row × LinearFunction R} {s : Site}
    {t : Term R} : (s, t) ∈ sited counts p ↔
      s.row = p.1 ∧ p.2.terms[s.position]? = some t ∧ counts t = true := by
  simp only [LinearFunction.sited, List.mem_filter, List.mem_map, List.mem_zipIdx_iff_getElem?,
    Prod.mk.injEq]
  constructor
  · rintro ⟨⟨⟨_, k⟩, hk, rfl, rfl⟩, hcounts⟩
    exact ⟨rfl, hk, hcounts⟩
  · rintro ⟨hrow, hk, hcounts⟩
    exact ⟨⟨(t, s.position), hk, by rw [← hrow], rfl⟩, hcounts⟩

section

variable {ρ : Type} [LinearOrder ρ] {rank : Row → ρ} {rows : List (Row × LinearFunction R)}

/-- As the rows ascend, so do the places. -/
theorem pairwise_sited (counts : Term R → Bool)
    (h : rows.Pairwise fun p q => rank p.1 < rank q.1) :
    (rows.flatMap (sited counts)).Pairwise fun p q => p.1.rank rank < q.1.rank rank := by
  refine List.pairwise_flatMap.mpr ⟨fun p _ => ?_, h.imp fun {p q} hpq => ?_⟩
  · refine List.Pairwise.filter _ (List.pairwise_map.mpr ?_)
    refine (pairwise_zipIdx_lt p.2.terms).imp fun {q r} hlt => ?_
    exact Prod.Lex.toLex_lt_toLex.mpr (.inr ⟨rfl, hlt⟩)
  · rintro ⟨s, _⟩ hs ⟨s', _⟩ hs'
    obtain ⟨hrow, _⟩ := mem_sited_iff.mp hs
    obtain ⟨hrow', _⟩ := mem_sited_iff.mp hs'
    refine Prod.Lex.toLex_lt_toLex.mpr (.inl ?_)
    dsimp only
    rwa [hrow, hrow']

/-- **The order in which a pass meets variables** is that of the places of their terms. -/
theorem idxOf_lt_iff_comesFirst [DecidableEq R] {m : Model R} {counts : Term R → Bool}
    {u v : Variable R} (hrows : ∀ p, p ∈ rows ↔ m.function? p.1 = some p.2)
    (hrank : rows.Pairwise fun p q => rank p.1 < rank q.1)
    (hu : u ∈ (rows.flatMap fun p => p.2.terms.filter counts).map (·.var)) :
    ((rows.flatMap fun p => p.2.terms.filter counts).map (·.var)).idxOf u <
        ((rows.flatMap fun p => p.2.terms.filter counts).map (·.var)).idxOf v ↔
      m.ComesFirst rank counts u v := by
  have hterms : (rows.flatMap fun p => p.2.terms.filter counts).map (·.var) =
      ((rows.flatMap (sited counts)).map fun q => (q.1.rank rank, q.2.var)).map (·.2) := by
    simp only [List.map_flatMap, List.map_map, ← map_snd_sited]
    rfl
  have hat : ∀ {s : Site} {w : Variable R}, m.HasAt counts w s ↔
      ∃ t, (s, t) ∈ rows.flatMap (sited counts) ∧ t.var = w := by
    intro s w
    simp only [Model.HasAt, Model.term?, List.mem_flatMap, mem_sited_iff, Option.bind_eq_some_iff]
    constructor
    · rintro ⟨t, ⟨f, hf, ht⟩, hcounts, hvar⟩
      exact ⟨t, ⟨(s.row, f), (hrows _).mpr hf, rfl, ht, hcounts⟩, hvar⟩
    · rintro ⟨t, ⟨⟨_, f⟩, hf, rfl, ht, hcounts⟩, hvar⟩
      exact ⟨t, ⟨f, (hrows _).mp hf, ht⟩, hcounts, hvar⟩
  have hpairwise := pairwise_sited counts hrank
  rw [hterms] at hu ⊢
  rw [idxOf_lt_iff_of_pairwise (List.pairwise_map.mpr hpairwise) hu]
  simp only [List.mem_map, Prod.mk.injEq, Model.ComesFirst, hat]
  constructor
  · rintro ⟨_, ⟨⟨s, t⟩, ht, rfl, hvar⟩, hless⟩
    refine ⟨s, ⟨t, ht, hvar⟩, ?_⟩
    rintro s' ⟨t', ht', hvar'⟩
    exact hless _ ⟨(s', t'), ht', rfl, hvar'⟩
  · rintro ⟨s, ⟨t, ht, hvar⟩, hless⟩
    refine ⟨_, ⟨(s, t), ht, rfl, hvar⟩, ?_⟩
    rintro _ ⟨⟨s', t'⟩, ht', rfl, hvar'⟩
    exact hless s' ⟨t', ht', hvar'⟩

end

end LinearProgram
