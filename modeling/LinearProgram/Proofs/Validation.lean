import Mathlib
import LinearProgram.Proofs.Repeats
import LinearProgram.Validation
/-!
# What the validator reports

A model is well formed (`Model.IsWellFormed`) if its name has no space, every variable
has a usable name and bounds in order, and no two variables or labelled constraints
share a name.  The validator reports exactly what is wrong: `violations_reportedExactly`
lists the violations place by place, counts those of a shared name, and concludes that
nothing is reported of a well-formed model and of no other.

## How the proof goes

The validator walks along the variables, and then along the labels, with a list of the
names it has met.  `Repeats` says the same of a place without a list: an earlier element
has the key of this one.  The key of a variable is its name and that of a constraint its
label, unless they are empty.  Each step of the walk preserves `Remembers`, by which the
violations of a walk are read off place by place (`variableViolations_eq`,
`labelViolations_eq`).  How many repeat a name, and when none does, are facts about keys.
-/
namespace LinearProgram

/-! ## The rules -/

variable {R : Type} [Scalar R]

namespace Variable

/-- A name is shared only if it is not empty. -/
def ownName? (v : Variable R) : Option Text :=
  if v.name = [] then none else some v.name

/-- The name holds one of `- + [ ] space > /`. -/
def NameReserved (v : Variable R) : Prop :=
  ∃ c ∈ ['-', '+', '[', ']', ' ', '>', '/'], CodePoint.char c ∈ v.name

/-- Both bounds are given and the lower one is greater, or the domain is binary and the bounds
are not 0 and 1. -/
def BoundsFail (v : Variable R) : Prop :=
  (∃ lo ∈ v.minimum?, ∃ hi ∈ v.maximum?, hi.less lo = true) ∨
    v.domain = .binary ∧ ¬ ((∃ lo ∈ v.minimum?, lo.equals (.int 0) = true) ∧
      ∃ hi ∈ v.maximum?, hi.equals (.int 1) = true)

instance (v : Variable R) : Decidable v.NameReserved :=
  inferInstanceAs (Decidable (∃ c ∈ ['-', '+', '[', ']', ' ', '>', '/'], _))

instance (v : Variable R) : Decidable v.BoundsFail :=
  inferInstanceAs (Decidable (_ ∨ _))

/-- What is wrong with a variable that stands after others: its name, its bounds, and that
another one has its name. -/
def violationsAfter (earlier : List (Variable R)) (v : Variable R) : List (Violation R) :=
  (if v.name = [] then [.emptyVariableName v]
    else if v.NameReserved then [.invalidVariableName v] else []) ++
    (if v.BoundsFail then [.invalidVariableBounds v] else []) ++
    (if Repeats ownName? earlier v then [.duplicateVariableName v] else [])

omit [Scalar R] in
theorem ownName?_eq_some_iff {v : Variable R} {name : Text} :
    v.ownName? = some name ↔ v.name = name ∧ name ≠ [] := by
  unfold ownName?
  split_ifs with h
  · simp only [false_iff, not_and, not_not]
    rintro rfl
    exact h
  · simp only [Option.some.injEq]
    exact ⟨fun e => ⟨e, e ▸ h⟩, And.left⟩

omit [Scalar R] in
theorem hasReservedCharacter_iff (v : Variable R) :
    v.hasReservedCharacter = true ↔ v.NameReserved := by
  simp only [hasReservedCharacter, NameReserved, List.any_eq_true]
  constructor
  · rintro ⟨p, hp, hin⟩
    cases p with
    | char c =>
      refine ⟨c, ?_, hp⟩
      simp only [CodePoint.isIn, reservedCharacters, List.contains_eq_mem] at hin
      simp at hin ⊢
      tauto
    | surrogate i => simp [CodePoint.isIn] at hin
  · rintro ⟨c, hc, hmem⟩
    refine ⟨.char c, hmem, ?_⟩
    simp only [CodePoint.isIn, reservedCharacters, List.contains_eq_mem]
    simp at hc ⊢
    tauto

theorem hasInvalidBounds_iff (v : Variable R) : v.hasInvalidBounds = true ↔ v.BoundsFail := by
  obtain ⟨id, name, domain, lo?, hi?⟩ := v
  cases lo? <;> cases hi? <;>
    simp [hasInvalidBounds, BoundsFail, boundsCross, hasUnitBounds, imp_iff_not_or]

end Variable

/-- A label is shared only if it is there and not empty. -/
def LabeledConstraint.ownLabel? (c : LabeledConstraint R) : Option Text :=
  c.label?.filter (· ≠ [])

omit [Scalar R] in
theorem LabeledConstraint.ownLabel?_eq_some_iff {c : LabeledConstraint R} {label : Text} :
    c.ownLabel? = some label ↔ c.label? = some label ∧ label ≠ [] := by
  simp [ownLabel?, Option.filter_eq_some_iff]

/-- What is wrong with a constraint that stands after others: one of them has its label. -/
def LabeledConstraint.violationsAfter (earlier : List (LabeledConstraint R)) (position : Nat)
    (c : LabeledConstraint R) : List (Violation R) :=
  c.ownLabel?.elim [] fun l =>
    if Repeats ownLabel? earlier c then [.duplicateConstraintName position l] else []

/-! ## The walk along variables and labels -/

/-- **The violations of variables, place by place.** -/
theorem variableViolations_eq (vs : List (Variable R)) : ∀ {earlier : List (Variable R)}
    {taken : List Text}, Remembers Variable.ownName? taken earlier →
      variableViolations taken vs = (vs.zipIdx earlier.length).flatMap fun p =>
        p.1.violationsAfter ((earlier ++ vs).take p.2) := by
  induction vs with
  | nil => intros; rfl
  | cons v vs ih =>
    intro earlier taken h
    have htake : (earlier ++ v :: vs).take earlier.length = earlier := List.take_left
    have hstep : ∀ {taken' : List Text}, Remembers Variable.ownName? taken' (earlier ++ [v]) →
        variableViolations taken' vs = (vs.zipIdx (earlier.length + 1)).flatMap fun p =>
          p.1.violationsAfter ((earlier ++ v :: vs).take p.2) := by
      intro taken' h'
      have hrest := ih h'
      rwa [List.length_append, List.length_singleton, List.append_assoc,
        List.singleton_append] at hrest
    have halone : v.violations = (if v.name = [] then [.emptyVariableName v]
        else if v.NameReserved then [.invalidVariableName v] else []) ++
          (if v.BoundsFail then [.invalidVariableBounds v] else []) := by
      simp only [Variable.violations, List.isEmpty_iff, v.hasReservedCharacter_iff,
        v.hasInvalidBounds_iff]
    rw [variableViolations, halone, List.zipIdx_cons, List.flatMap_cons, htake,
      Variable.violationsAfter, List.append_assoc _ _ (List.flatMap _ _)]
    congr 1
    by_cases hname : v.name = []
    · have hkey : v.ownName? = none := if_pos hname
      have hnot : ¬ Repeats Variable.ownName? earlier v := not_repeats_of_none hkey
      simp [hname, hnot, hstep (h.skip hkey)]
    · have hkey : v.ownName? = some v.name := if_neg hname
      by_cases htaken : v.name ∈ taken
      · have hrepeats := (h.repeats_iff hkey).mpr htaken
        simp [hname, htaken, hrepeats, hstep (h.again hkey htaken)]
      · have hnot : ¬ Repeats Variable.ownName? earlier v := fun hr =>
          htaken ((h.repeats_iff hkey).mp hr)
        simp [hname, htaken, hnot, hstep (h.add hkey)]

omit [Scalar R] in
/-- **The violations of labels, place by place.** -/
theorem labelViolations_eq (cs : List (LabeledConstraint R)) :
    ∀ {earlier : List (LabeledConstraint R)} {taken : List Text},
      Remembers LabeledConstraint.ownLabel? taken earlier →
        labelViolations taken earlier.length (cs.map (·.label?)) =
          (cs.zipIdx earlier.length).flatMap fun p =>
            p.1.violationsAfter ((earlier ++ cs).take p.2) p.2 := by
  induction cs with
  | nil => intros; rfl
  | cons c cs ih =>
    intro earlier taken h
    have htake : (earlier ++ c :: cs).take earlier.length = earlier := List.take_left
    have hstep : ∀ {taken' : List Text},
        Remembers LabeledConstraint.ownLabel? taken' (earlier ++ [c]) →
          labelViolations taken' (earlier.length + 1) (cs.map (·.label?)) =
            (cs.zipIdx (earlier.length + 1)).flatMap fun p =>
              p.1.violationsAfter ((earlier ++ c :: cs).take p.2) p.2 := by
      intro taken' h'
      have hrest := ih h'
      rwa [List.length_append, List.length_singleton, List.append_assoc,
        List.singleton_append] at hrest
    rw [List.zipIdx_cons, List.flatMap_cons, htake, List.map_cons,
      LabeledConstraint.violationsAfter]
    cases hlabel : c.label? with
    | none =>
      have hkey : c.ownLabel? = none := by simp [LabeledConstraint.ownLabel?, hlabel]
      simp [labelViolations, hkey, hstep (h.skip hkey)]
    | some l =>
      by_cases hl : l = []
      · have hkey : c.ownLabel? = none := by simp [LabeledConstraint.ownLabel?, hlabel, hl]
        simp [labelViolations, hl, hkey, hstep (h.skip hkey)]
      · have hkey : c.ownLabel? = some l := by simp [LabeledConstraint.ownLabel?, hlabel, hl]
        by_cases htaken : l ∈ taken
        · have hrepeats := (h.repeats_iff hkey).mpr htaken
          simp [labelViolations, hl, hkey, htaken, hrepeats, hstep (h.again hkey htaken)]
        · have hnot : ¬ Repeats LabeledConstraint.ownLabel? earlier c := fun hr =>
            htaken ((h.repeats_iff hkey).mp hr)
          simp [labelViolations, hl, hkey, htaken, hnot, hstep (h.add hkey)]

/-! ## Models -/

namespace Violation

/-- The variable that is reported because an earlier one has the name. -/
def duplicateHolder? (name : Text) : Violation R → Option (Variable R)
  | duplicateVariableName v => if v.name = name then some v else none
  | _ => none

/-- The position that is reported because an earlier constraint has the label. -/
def duplicatePosition? (label : Text) : Violation R → Option Nat
  | duplicateConstraintName k l => if l = label then some k else none
  | _ => none

/-- The position of the constraint that a violation is about, if it is about one. -/
def position? : Violation R → Option Nat
  | duplicateConstraintName k _ => some k
  | _ => none

end Violation

namespace Model

/-- The positions of the constraints with a label. -/
def positionsOf (m : Model R) (label : Text) : List Nat :=
  (m.constraints.zipIdx.filter (·.1.label? = some label)).map (·.2)

variable [DecidableEq R]

/-- A solver can be handed the model: names can be written, bounds are in order, and no name or
label is shared. -/
structure IsWellFormed (m : Model R) : Prop where
  name : CodePoint.char ' ' ∉ m.name
  vars : ∀ v ∈ m.vars, v.name ≠ [] ∧ ¬ v.NameReserved ∧ ¬ v.BoundsFail
  names : (m.vars.map (·.name)).Nodup
  labels : (m.constraints.filterMap LabeledConstraint.ownLabel?).Nodup

/-- **Every violation of a model, in order.** -/
theorem violations_eq (m : Model R) :
    m.violations = (if CodePoint.char ' ' ∈ m.name then [.invalidModelName m.name] else []) ++
      m.vars.zipIdx.flatMap (fun p => p.1.violationsAfter (m.vars.take p.2)) ++
        m.constraints.zipIdx.flatMap
          fun p => p.1.violationsAfter (m.constraints.take p.2) p.2 := by
  have hvars := variableViolations_eq m.vars (remembers_nil Variable.ownName?)
  have hlabels := labelViolations_eq m.constraints (remembers_nil LabeledConstraint.ownLabel?)
  rw [violations, hvars]
  simp only [List.contains_eq_mem, decide_eq_true_eq]
  exact congrArg _ hlabels

/-! ## Counting -/

/-- What a view shows of all violations it shows place by place. -/
theorem filterMap_violations {β : Type} (m : Model R) (view : Violation R → Option β)
    (hname : view (.invalidModelName m.name) = none) :
    m.violations.filterMap view =
      m.vars.zipIdx.flatMap (fun p =>
        (p.1.violationsAfter (m.vars.take p.2)).filterMap view) ++
        m.constraints.zipIdx.flatMap fun p =>
          (p.1.violationsAfter (m.constraints.take p.2) p.2).filterMap view := by
  have hnone : List.filterMap view
      (if CodePoint.char ' ' ∈ m.name then [.invalidModelName m.name] else []) = [] := by
    split_ifs <;> simp [hname]
  rw [violations_eq, List.filterMap_append, List.filterMap_append, hnone, List.nil_append,
    List.filterMap_flatMap, List.filterMap_flatMap]

section

variable (name : Text)

omit [DecidableEq R] in
theorem duplicateHolder?_violationsAfter (earlier : List (Variable R)) (v : Variable R) :
    (v.violationsAfter earlier).filterMap (Violation.duplicateHolder? name) =
      if Repeats Variable.ownName? earlier v ∧ v.ownName? = some name then [v] else [] := by
  have halone : List.filterMap (Violation.duplicateHolder? name)
      ((if v.name = [] then [.emptyVariableName v]
        else if v.NameReserved then [.invalidVariableName v] else []) ++
          if v.BoundsFail then [.invalidVariableBounds v] else []) = [] := by
    split_ifs <;> rfl
  rw [Variable.violationsAfter, List.filterMap_append, halone, List.nil_append]
  by_cases hrepeats : Repeats Variable.ownName? earlier v
  · obtain ⟨own, hkey⟩ := Option.isSome_iff_exists.mp hrepeats.1
    obtain ⟨rfl, _⟩ := Variable.ownName?_eq_some_iff.mp hkey
    by_cases heq : v.name = name <;> simp [hrepeats, hkey, heq, Violation.duplicateHolder?]
  · simp [hrepeats]

omit [Scalar R] [DecidableEq R] in
theorem duplicateHolder?_violationsOfLabel (earlier : List (LabeledConstraint R)) (k : Nat)
    (c : LabeledConstraint R) :
    (c.violationsAfter earlier k).filterMap (Violation.duplicateHolder? name) = [] := by
  unfold LabeledConstraint.violationsAfter
  cases c.ownLabel? with
  | none => rfl
  | some l =>
    dsimp only [Option.elim_some]
    split_ifs <;> rfl

omit [DecidableEq R] in
theorem duplicatePosition?_violationsOfName (earlier : List (Variable R)) (v : Variable R) :
    (v.violationsAfter earlier).filterMap (Violation.duplicatePosition? name) = [] := by
  unfold Variable.violationsAfter
  split_ifs <;> rfl

omit [Scalar R] [DecidableEq R] in
theorem duplicatePosition?_violationsAfter (earlier : List (LabeledConstraint R)) (k : Nat)
    (c : LabeledConstraint R) :
    (c.violationsAfter earlier k).filterMap (Violation.duplicatePosition? name) =
      if Repeats LabeledConstraint.ownLabel? earlier c ∧ c.ownLabel? = some name then [k]
      else [] := by
  unfold LabeledConstraint.violationsAfter
  cases hkey : c.ownLabel? with
  | none => simp
  | some l =>
    by_cases hrepeats : Repeats LabeledConstraint.ownLabel? earlier c
    · by_cases hl : l = name <;> simp [hrepeats, hl, Violation.duplicatePosition?]
    · simp [hrepeats]

end

/-- **Of the variables with one name all but the first are reported.** -/
theorem duplicateHolders_violations (m : Model R) {name : Text} (hname : name ≠ []) :
    m.violations.filterMap (Violation.duplicateHolder? name) =
      (m.vars.filter (·.name = name)).tail := by
  have hkey : ∀ v : Variable R, v.ownName? = some name ↔ v.name = name := fun v => by
    rw [Variable.ownName?_eq_some_iff]
    exact and_iff_left hname
  have hfst : (m.vars.zipIdx.filter (·.1.name = name)).map (·.1) =
      m.vars.filter (·.name = name) := by
    have hfilter := List.filter_map (p := fun v : Variable R => decide (v.name = name))
      (f := Prod.fst) (l := m.vars.zipIdx)
    rw [List.zipIdx_map_fst] at hfilter
    exact hfilter.symm
  rw [filterMap_violations m _ rfl]
  simp only [duplicateHolder?_violationsAfter, duplicateHolder?_violationsOfLabel]
  rw [flatMap_repeats Variable.ownName? name Prod.fst m.vars]
  simp only [hkey, hfst]
  simp

/-- **Of the constraints with one label all but the first are reported.** -/
theorem duplicatePositions_violations (m : Model R) {label : Text} (hlabel : label ≠ []) :
    m.violations.filterMap (Violation.duplicatePosition? label) = (m.positionsOf label).tail := by
  have hkey : ∀ c : LabeledConstraint R, c.ownLabel? = some label ↔ c.label? = some label :=
    fun c => by
      rw [LabeledConstraint.ownLabel?_eq_some_iff]
      exact and_iff_left hlabel
  rw [filterMap_violations m _ rfl]
  simp only [duplicatePosition?_violationsAfter, duplicatePosition?_violationsOfName]
  rw [flatMap_repeats LabeledConstraint.ownLabel? label Prod.snd m.constraints]
  simp [hkey, positionsOf]

/-! ## Well-formed models -/

omit [DecidableEq R] in
theorem violationsAfter_eq_nil_iff {earlier : List (Variable R)} {v : Variable R} :
    v.violationsAfter earlier = [] ↔ (v.name ≠ [] ∧ ¬ v.NameReserved ∧ ¬ v.BoundsFail) ∧
      ¬ Repeats Variable.ownName? earlier v := by
  unfold Variable.violationsAfter
  split_ifs <;> simp_all

omit [Scalar R] [DecidableEq R] in
theorem violationsOfLabel_eq_nil_iff {earlier : List (LabeledConstraint R)} {k : Nat}
    {c : LabeledConstraint R} :
    c.violationsAfter earlier k = [] ↔ ¬ Repeats LabeledConstraint.ownLabel? earlier c := by
  unfold LabeledConstraint.violationsAfter
  cases hkey : c.ownLabel? with
  | none => simp [not_repeats_of_none hkey]
  | some l => simp

omit [Scalar R] [DecidableEq R] in
/-- If no name is empty, all names count. -/
theorem filterMap_ownName? {vs : List (Variable R)} (h : ∀ v ∈ vs, v.name ≠ []) :
    vs.filterMap Variable.ownName? = vs.map (·.name) := by
  induction vs with
  | nil => rfl
  | cons v vs ih =>
    obtain ⟨hv, hvs⟩ := List.forall_mem_cons.mp h
    have hkey : v.ownName? = some v.name := Variable.ownName?_eq_some_iff.mpr ⟨rfl, hv⟩
    rw [List.filterMap_cons_some hkey, ih hvs, List.map_cons]

/-- **Nothing is reported of a well-formed model, and of no other.** -/
theorem violations_eq_nil_iff (m : Model R) : m.violations = [] ↔ m.IsWellFormed := by
  have hnames := forall_not_repeats_iff Variable.ownName? m.vars []
  have hlabels := forall_not_repeats_iff LabeledConstraint.ownLabel? m.constraints []
  simp only [List.length_nil, List.nil_append, List.not_mem_nil, false_and, exists_false,
    not_false_eq_true, implies_true, and_true] at hnames hlabels
  have hvars : (∀ p ∈ m.vars.zipIdx, p.1.violationsAfter (m.vars.take p.2) = []) ↔
      (∀ v ∈ m.vars, v.name ≠ [] ∧ ¬ v.NameReserved ∧ ¬ v.BoundsFail) ∧
        (m.vars.filterMap Variable.ownName?).Nodup := by
    simp only [violationsAfter_eq_nil_iff]
    rw [← hnames, forall₂_and]
    exact and_congr_left' (forall_mem_zipIdx_iff
      (p := fun v : Variable R => v.name ≠ [] ∧ ¬ v.NameReserved ∧ ¬ v.BoundsFail))
  have hname : (if CodePoint.char ' ' ∈ m.name then [Violation.invalidModelName m.name]
      else ([] : List (Violation R))) = [] ↔ CodePoint.char ' ' ∉ m.name := by
    split_ifs with h <;> simp [h]
  rw [violations_eq]
  simp only [List.append_eq_nil_iff, List.flatMap_eq_nil_iff, violationsOfLabel_eq_nil_iff]
  rw [hvars, hlabels, hname]
  constructor
  · rintro ⟨⟨hspace, hvars, hnames⟩, hlabels⟩
    refine ⟨hspace, hvars, ?_, hlabels⟩
    rwa [filterMap_ownName? fun v hv => (hvars v hv).1] at hnames
  · rintro ⟨hspace, hvars, hnames, hlabels⟩
    refine ⟨⟨hspace, hvars, ?_⟩, hlabels⟩
    rwa [filterMap_ownName? fun v hv => (hvars v hv).1]

omit [DecidableEq R] in
theorem position?_of_mem_violationsAfter {earlier : List (Variable R)} {v : Variable R}
    {e : Violation R} (he : e ∈ v.violationsAfter earlier) : e.position? = none := by
  have hall : ∀ e ∈ v.violationsAfter earlier, e.position? = none := by
    unfold Variable.violationsAfter
    split_ifs <;> simp [Violation.position?]
  exact hall e he

/-- The error about a constraint carries its label, which is not empty. -/
theorem label_of_mem_violations {m : Model R} {e : Violation R} (he : e ∈ m.violations) {k : Nat}
    (hk : e.position? = some k) : ∃ c l, m.constraints[k]? = some c ∧ c.label? = some l ∧
      e.label? = some l ∧ e.subjectName = l ∧ l ≠ [] := by
  rw [violations_eq, List.mem_append, List.mem_append] at he
  rcases he with (he | he) | he
  · split_ifs at he
    · obtain rfl := List.mem_singleton.mp he
      cases hk
    · cases he
  · obtain ⟨p, _, he⟩ := List.mem_flatMap.mp he
    rw [position?_of_mem_violationsAfter he] at hk
    cases hk
  · obtain ⟨⟨c, j⟩, hc, he⟩ := List.mem_flatMap.mp he
    unfold LabeledConstraint.violationsAfter at he
    cases hkey : c.ownLabel? with
    | none => simp [hkey] at he
    | some l =>
      obtain ⟨hlabel, hl⟩ := LabeledConstraint.ownLabel?_eq_some_iff.mp hkey
      simp only [hkey, Option.elim_some] at he
      split_ifs at he
      · obtain rfl := List.mem_singleton.mp he
        obtain rfl := Option.some.inj hk
        exact ⟨c, l, List.mem_zipIdx_iff_getElem?.mp hc, hlabel, rfl, rfl, hl⟩
      · cases he

/-- What is reported of a model is what is wrong with it, place by place; a name or label with
several holders is reported for all of them but the first. -/
structure ReportedExactly (m : Model R) : Prop where
  list : m.violations =
    (if CodePoint.char ' ' ∈ m.name then [.invalidModelName m.name] else []) ++
      m.vars.zipIdx.flatMap (fun p => p.1.violationsAfter (m.vars.take p.2)) ++
        m.constraints.zipIdx.flatMap fun p =>
          p.1.violationsAfter (m.constraints.take p.2) p.2
  holders : ∀ name : Text, name ≠ [] →
    m.violations.filterMap (Violation.duplicateHolder? name) =
      (m.vars.filter (·.name = name)).tail
  positions : ∀ label : Text, label ≠ [] →
    m.violations.filterMap (Violation.duplicatePosition? label) = (m.positionsOf label).tail
  nil_iff : m.violations = [] ↔ m.IsWellFormed
  labels : ∀ e ∈ m.violations, ∀ k, e.position? = some k →
    ∃ c l, m.constraints[k]? = some c ∧ c.label? = some l ∧ e.label? = some l ∧
      e.subjectName = l ∧ l ≠ []

/-- **The validator reports exactly what is wrong**, in order and as often as it is. -/
theorem violations_reportedExactly (m : Model R) : m.ReportedExactly where
  list := m.violations_eq
  holders _ hname := m.duplicateHolders_violations hname
  positions _ hlabel := m.duplicatePositions_violations hlabel
  nil_iff := m.violations_eq_nil_iff
  labels _ he _ hk := label_of_mem_violations he hk

end Model

end LinearProgram
