import Mathlib
import LinearProgram.Proofs.Cbc.Run
import LinearProgram.Proofs.Double.Integer
import LinearProgram.Proofs.InProcess.Program
import LinearProgram.Proofs.Mps.Decoding
/-!
# The two back ends are given the same program

One solver reads a file that lists the entries of a model by column, the other is handed
columns and rows by calls that set one coefficient after another.  `Agrees` says entry by
entry when a file and a program are the same, and the main statement is `exists_agrees`:
when a model can be merged and its numbers are doubles, or integers that can be made
doubles, both are made, and they agree.  The direction in the file is a comment that the solver
does not obey; what it obeys stands in its arguments, so these have to agree as well.

## How the proof goes

Both are made from the normal form, in which a variable has at most one term in a row and
that term is not zero.  So the coefficient of a variable in a row is the factor of this term as
a double (`map_entriesFor`).  The file has the factor as it was given, which for an integer is
not a double yet; but its text and the tests for 0 and 1 do not change when it is made
one, and nothing else of it reaches the file.
-/
namespace LinearProgram

open LinearProgram.Mps (Deck DeckColumn columnWord rowWord objectiveName numberText numberText?)
open LinearProgram.InProcess (Program Column BoundedRow Settings settingsOf? Describes
  keys_of_settingsOf? mem_settings_of_mem_terms columnOf?_eq_some_iff rowOf?_eq_some_iff
  lowerFor upperFor exists_column exists_describes ofModel?_eq_ok)

/-! ## When a file and a program are the same -/

/-- The entry of a column in a row: none for the coefficient 0, otherwise the text of the
coefficient. -/
def coefficientEntries (row : List Char) (x : Float) : List (List Char × List Char) :=
  if (Number.real x).isZero then [] else [(row, numberText (.real x))]

/-- A column of a program with its entries, the objective's last. -/
def columnEntries (p : Program Float) (i : Nat) (c : Column Float) : DeckColumn where
  name := columnWord i
  integral := c.integral
  entries := p.rows.zipIdx.flatMap (fun q =>
      coefficientEntries (rowWord q.2) (q.1.settings.coefficient c.var)) ++
    coefficientEntries objectiveName (p.objective.coefficient c.var)

/-- Whether a column takes the values 0 and 1 only. -/
def isZeroOne (c : Column Float) : Bool :=
  c.integral && ((c.lower?.any fun x => (Number.real x).equals (.int 0)) &&
    c.upper?.any fun x => (Number.real x).equals (.int 1))

/-- A file says the same as a program. -/
structure Agrees (d : Deck) (p : Program Float) : Prop where
  sense : d.optimization = .maximize ↔ p.maximize = true
  columns_length : d.columns.length = p.columns.length
  columns : ∀ (i : Nat) (c : Column Float), p.columns[i]? = some c →
    d.columns[i]? = some (columnEntries p i c)
  no_objective : d.hasObjective = false → p.objective = []
  rows_length : d.rows.length = p.rows.length
  rightHandSides_length : d.rightHandSides.length = p.rows.length
  rows : ∀ (k : Nat) (row : BoundedRow Float), p.rows[k]? = some row →
    ∃ (comparison : Comparison) (r : Float), d.rows[k]? = some (comparison, rowWord k) ∧
      d.rightHandSides[k]? = some (rowWord k, numberText (.real r)) ∧
      (comparison = .lte ↔ row.lower? = none ∧ row.upper? = some r) ∧
      (comparison = .gte ↔ row.lower? = some r ∧ row.upper? = none) ∧
      (comparison = .eq ↔ row.lower? = some r ∧ row.upper? = some r)
  binaries : d.binaries =
    (p.columns.zipIdx.filter fun q => isZeroOne q.1).map fun q => columnWord q.2

/-! ## Numbers and their doubles -/

/-- A number and its double have the same text. -/
theorem numberText_of_real? {k : Number Float} {x : Float} (h : k.real? = some x) :
    numberText (.real x) = numberText k := by
  have htext : numberText? (.real x) = numberText? k := by
    unfold numberText?
    rw [Double.equals_of_real? h (.inr rfl), h]
    rfl
  rw [numberText, htext, numberText]

/-- Bounds and their doubles are 0, or 1, together. -/
theorem any_equals_of_real? {k? : Option (Number Float)} {x? : Option Float}
    (h : k?.mapM Number.real? = some x?) {i : Int} (hi : i = 0 ∨ i = 1) :
    (x?.any fun x => (Number.real x).equals (.int i)) = k?.any (·.equals (.int i)) := by
  cases k? with
  | none =>
    obtain rfl := Option.some.inj h
    rfl
  | some k =>
    obtain ⟨x, hx, hx?⟩ := Option.map_eq_some_iff.mp (by simpa [Option.mapM] using h)
    rw [← hx?]
    exact Double.equals_of_real? hx hi

/-! ## Entries and coefficients -/

/-- What is never set makes no entry. -/
theorem coefficientEntries_zero (row : List Char) :
    coefficientEntries row (Zero.zero : Float) = [] := by
  have hzero : (Number.real (Zero.zero : Float)).isZero = true := by decide +kernel
  exact if_pos hzero

theorem keys_entries {row : Row} {f : LinearFunction Float} (h : f.IsNormal) :
    (f.entries row).map (·.1) = f.terms.map (·.var) := by
  rw [LinearFunction.entries, h.nonzeroTerms_eq, List.map_map]
  rfl

/-- **The entries of a variable in a row are those of its coefficient.** -/
theorem map_entriesFor {f : LinearFunction Float} (hf : f.IsNormal) {s : Settings Float}
    (hs : settingsOf? f = some s) (row : Row) (v : Variable Float) :
    (f.entriesFor row v).map (fun e => (Mps.Row.word e.1, numberText e.2))
      = coefficientEntries (Mps.Row.word row) (s.coefficient v) := by
  have hkeys := keys_of_settingsOf? hs
  rw [← valuesOf_entries, Settings.coefficient]
  by_cases hv : v ∈ f.terms.map (·.var)
  · obtain ⟨t, ht, rfl⟩ := List.mem_map.mp hv
    obtain ⟨x, hx, hmem⟩ := mem_settings_of_mem_terms hs ht
    have hentry : (t.var, (row, t.factor)) ∈ f.entries row := by
      rw [LinearFunction.entries, hf.nonzeroTerms_eq]
      exact List.mem_map_of_mem (f := fun t => (t.var, (row, t.factor))) ht
    have hnonzero : (Number.real x).isZero = false :=
      (Double.isZero_of_real? hx).trans (hf.nonzero t ht)
    rw [valuesOf_of_nodup (keys_entries hf ▸ hf.nodup) hentry,
      lastValue?_of_nodup (hkeys ▸ hf.nodup) hmem, Option.getD_some, coefficientEntries, hnonzero,
      numberText_of_real? hx]
    rfl
  · rw [valuesOf_eq_nil_iff.mpr (keys_entries hf ▸ hv), lastValue?_eq_none (hkeys ▸ hv),
      Option.getD_none]
    exact (coefficientEntries_zero _).symm

section

variable {n : Model Float} {p : Program Float}

/-- In a normal form every variable has an entry. -/
theorem hasEntry_of_mem_zipIdx (hnormal : ∀ f ∈ n.functions, f.IsNormal)
    {q : Variable Float × Nat} (hq : q ∈ n.vars.zipIdx) : n.hasEntry q.1 = true := by
  have hvar : q.1 ∈ n.vars := List.mem_of_getElem? (List.mem_zipIdx_iff_getElem?.mp hq)
  obtain ⟨t, ht, hvar⟩ := Model.mem_vars_iff.mp hvar
  obtain ⟨f, hf, htf⟩ := Model.mem_terms_iff.mp ht
  rw [Model.hasEntry, List.any_eq_true]
  exact ⟨t, ht, by simp [hvar, (hnormal f hf).nonzero t htf]⟩

/-- The columns of a normal form leave no gaps. -/
theorem columns_ofModel (hnormal : ∀ f ∈ n.functions, f.IsNormal) :
    (Deck.ofModel n).columns
      = n.vars.zipIdx.map fun q => DeckColumn.of q.2 q.1 (n.entriesFor q.1) := by
  have hfilter : (n.vars.zipIdx.filter fun q => n.hasEntry q.1) = n.vars.zipIdx :=
    List.filter_eq_self.mpr fun _ hq => hasEntry_of_mem_zipIdx hnormal hq
  rw [Deck.ofModel, hfilter]

/-- The binaries of a normal form are its binary variables. -/
theorem binaries_ofModel (hnormal : ∀ f ∈ n.functions, f.IsNormal) :
    (Deck.ofModel n).binaries
      = (n.vars.zipIdx.filter fun q => q.1.isBinary).map fun q => columnWord q.2 := by
  have hfilter : (n.vars.zipIdx.filter fun q =>
      n.hasEntry q.1 && (q.1.domain ≠ .real && (q.1.minimum?.any (·.equals (.int 0)) &&
        q.1.maximum?.any (·.equals (.int 1)))))
        = n.vars.zipIdx.filter fun q => q.1.isBinary := by
    refine List.filter_congr fun q hq => ?_
    rw [hasEntry_of_mem_zipIdx hnormal hq, Bool.true_and]
    rfl
  rw [Deck.ofModel, hfilter]

/-- A column and its variable are both binary or not. -/
theorem isZeroOne_of_columnOf? {v : Variable Float} {c : Column Float}
    (h : Column.of? v = some c) : isZeroOne c = v.isBinary := by
  obtain ⟨_, hlower, hupper, hintegral⟩ := columnOf?_eq_some_iff.mp h
  rw [isZeroOne, hintegral, any_equals_of_real? hlower (.inl rfl),
    any_equals_of_real? hupper (.inr rfl)]
  rfl

/-- The column of a variable has the entries of its coefficients, row by row. -/
theorem map_entriesFor_eq (hp : Describes p n) (hnormal : ∀ f ∈ n.functions, f.IsNormal)
    (v : Variable Float) :
    (n.entriesFor v).map (fun e => (Mps.Row.word e.1, numberText e.2))
      = p.rows.zipIdx.flatMap (fun q =>
          coefficientEntries (rowWord q.2) (q.1.settings.coefficient v)) ++
        coefficientEntries objectiveName (p.objective.coefficient v) := by
  rw [Model.entriesFor, List.map_append, List.map_flatMap, List.map_flatMap]
  congr 1
  · have hrow : List.Forall₂
        (fun (c : LabeledConstraint Float × Nat) (q : BoundedRow Float × Nat) =>
          coefficientEntries (rowWord q.2) (q.1.settings.coefficient v)
            = (c.1.constraint.function.entriesFor (.constraint c.2) v).map
                fun e => (Mps.Row.word e.1, numberText e.2))
        n.constraints.zipIdx p.rows.zipIdx := by
      have hf : ∀ c ∈ n.constraints, c.constraint.function.IsNormal :=
        fun c hc => hnormal _ (Model.function_mem_functions hc)
      have hrows := forall₂_zipIdx ((List.forall₂_and_left _ _).mpr ⟨hf, hp.rows⟩) 0
      refine hrows.imp ?_
      rintro ⟨c, k⟩ ⟨row, j⟩ ⟨⟨hc, hof⟩, hkj⟩
      obtain rfl : k = j := hkj
      exact (map_entriesFor hc (rowOf?_eq_some_iff.mp hof).1 (.constraint k) v).symm
    rw [List.flatMap_def, List.flatMap_def, map_eq_map_of_forall₂ hrow]
  · cases ho : n.objective? with
    | none =>
      rw [hp.objective_eq_nil ho]
      exact (coefficientEntries_zero _).symm
    | some o =>
      rw [Option.toList_some, List.flatMap_singleton]
      exact map_entriesFor (hnormal _ (Model.objective_mem_functions ho))
        (hp.settings_objective ho) .objective v

/-! ## The two are the same -/

theorem agrees_ofModel (hp : Describes p n) (hnormal : ∀ f ∈ n.functions, f.IsNormal) :
    Agrees (Deck.ofModel n) p where
  sense := by
    rw [hp.maximize, Model.maximizes, decide_eq_true_iff]
    rfl
  columns_length := by
    rw [columns_ofModel hnormal, List.length_map, List.length_zipIdx, hp.columns.length_eq]
  columns := by
    intro i c hi
    obtain ⟨v, hv, hof⟩ := forall₂_getElem? hp.columns.flip hi
    obtain ⟨hvar, _, _, hintegral⟩ := columnOf?_eq_some_iff.mp hof
    have hcolumn : DeckColumn.of i v (n.entriesFor v) = columnEntries p i c := by
      rw [DeckColumn.of, columnEntries, map_entriesFor_eq hp hnormal v, hintegral, hvar]
      rfl
    rw [columns_ofModel hnormal, List.getElem?_map, List.getElem?_zipIdx, hv]
    simp [hcolumn]
  no_objective := by
    intro h
    have hnone : n.objective? = none :=
      Option.isNone_iff_eq_none.mp (Option.isSome_eq_false_iff.mp h)
    exact hp.objective_eq_nil hnone
  rows_length := by
    rw [Deck.ofModel, List.length_map, List.length_zipIdx, hp.rows.length_eq]
  rightHandSides_length := by
    rw [Deck.ofModel, List.length_map, List.length_zipIdx, hp.rows.length_eq]
  rows := by
    intro k row hk
    obtain ⟨c, hc, hof⟩ := forall₂_getElem? hp.rows.flip hk
    obtain ⟨_, hlower, hupper⟩ := rowOf?_eq_some_iff.mp hof
    refine ⟨c.constraint.comparison, c.constraint.rightHandSide, ?_, ?_, ?_⟩
    · simp [Deck.ofModel, hc]
    · simp [Deck.ofModel, hc, Constraint.rightHandSide]
    · rw [hlower, hupper]
      cases c.constraint.comparison <;> simp [lowerFor, upperFor]
  binaries := by
    have hbinary : List.Forall₂ (fun (q : Variable Float × Nat) (r : Column Float × Nat) =>
        columnWord q.2 = columnWord r.2)
        (n.vars.zipIdx.filter fun q => q.1.isBinary)
        (p.columns.zipIdx.filter fun r => isZeroOne r.1) := by
      refine (List.rel_filter ?_ (forall₂_zipIdx hp.columns 0)).imp fun q r h =>
        congrArg (fun i : Nat => columnWord i) h.2
      rintro ⟨v, i⟩ ⟨c, j⟩ ⟨hvc, _⟩
      exact iff_of_eq (congrArg (· = true) (isZeroOne_of_columnOf? hvc).symm)
    rw [binaries_ofModel hnormal, map_eq_map_of_forall₂ hbinary.flip]

end

/-- **Both back ends are given the same program**: when a model can be merged, the merged
factors and the bounds being doubles or integers that have one, its program is handed over, its
file is written, and what the file says is the program.  A solver that is started on the merged
model finds this file and is told the direction of the program. -/
theorem exists_agrees {m n : Model Float} (hn : m.normalized? = some n)
    (hfactors : ∀ t ∈ n.terms, ∃ x, t.factor.real? = some x)
    (hbounds : ∀ v ∈ m.vars, (∀ k ∈ v.minimum?, ∃ x, k.real? = some x) ∧
      ∀ k ∈ v.maximum?, ∃ x, k.real? = some x) :
    ∃ p s d, Program.ofModel? true m = .ok p ∧ Mps.text? n = some s ∧
      Deck.ofText? s.toList = some d ∧ Agrees d p ∧ d.hasObjective = m.objective?.isSome ∧
      ∀ around command st, (Cbc.solve around command n).started? = some st →
        ∃ folder, around.folder = .ok folder ∧ st.modelText = s ∧
          st.arguments = Cbc.callIn folder (if p.maximize then .maximize else .minimize) := by
  have hnormalizes : m.Normalizes n := Model.normalized?_eq_some_iff.mp hn
  have hcolumns : ∀ v ∈ n.vars, ∃ c, Column.of? v = some c := fun v hv =>
    exists_column (hbounds v (hnormalizes.mem_vars hv)).1 (hbounds v (hnormalizes.mem_vars hv)).2
  obtain ⟨p, hp⟩ := exists_describes hfactors hcolumns
  obtain ⟨s, hs, hread⟩ := Mps.exists_text n hfactors
  have hagrees : Agrees (Deck.ofModel n) p := agrees_ofModel hp fun _ hf => hnormalizes.isNormal hf
  refine ⟨p, s, Deck.ofModel n, ofModel?_eq_ok hnormalizes hp, hs, hread, hagrees,
    hnormalizes.objective_isSome, fun around command st hst => ?_⟩
  obtain ⟨folder, hfolder, htext, harguments⟩ := Cbc.isFor_of_started? hst
  have hdirection : n.optimization = if p.maximize then .maximize else .minimize := by
    have hsense : n.optimization = .maximize ↔ p.maximize = true := hagrees.sense
    cases ho : n.optimization <;> simp_all
  exact ⟨folder, hfolder, Option.some.inj (htext.symm.trans hs), hdirection ▸ harguments⟩

/-- A model with integers and doubles among its factors, a variable that is repeated in a row and
another one that cancels out. -/
def mixedModel : Model Float :=
  let x : Variable Float := ⟨0, Text.ofString "x", .real, none, some (.int 4)⟩
  let y : Variable Float := ⟨1, Text.ofString "y", .integer, some (.int 0), some (.real 1.0)⟩
  let z : Variable Float := ⟨2, Text.ofString "z", .real, none, none⟩
  { name := Text.ofString "mixed"
    objective? := some ⟨⟨[⟨z, .int 1⟩, ⟨x, .int 2⟩, ⟨z, .int (-1)⟩], 7.0⟩, .maximize⟩
    constraints := [
      ⟨⟨⟨[⟨y, .int 3⟩, ⟨x, .real 1.5⟩, ⟨y, .real 0.5⟩], 2.0⟩, .lte, 6.0⟩, none⟩,
      ⟨⟨⟨[⟨x, .bool true⟩, ⟨z, .real 0.0⟩, ⟨y, .int 1⟩], 0.0⟩, .gte, 0.25⟩, none⟩,
      ⟨⟨⟨[⟨y, .int 5⟩], 1.0⟩, .eq, 1.0⟩, some (Text.ofString "last")⟩] }

/-- The normal form of `mixedModel`. -/
def mergedModel : Model Float :=
  let x : Variable Float := ⟨0, Text.ofString "x", .real, none, some (.int 4)⟩
  let y : Variable Float := ⟨1, Text.ofString "y", .integer, some (.int 0), some (.real 1.0)⟩
  { name := Text.ofString "mixed"
    objective? := some ⟨⟨[⟨x, .int 2⟩], 7.0⟩, .maximize⟩
    constraints := [
      ⟨⟨⟨[⟨y, .real 3.5⟩, ⟨x, .real 1.5⟩], 2.0⟩, .lte, 6.0⟩, none⟩,
      ⟨⟨⟨[⟨x, .bool true⟩, ⟨y, .int 1⟩], 0.0⟩, .gte, 0.25⟩, none⟩,
      ⟨⟨⟨[⟨y, .int 5⟩], 1.0⟩, .eq, 1.0⟩, some (Text.ofString "last")⟩] }

theorem exists_agrees_mixedModel :
    mixedModel.normalized? = some mergedModel ∧
      ∃ p s d, Program.ofModel? true mixedModel = .ok p ∧ Mps.text? mergedModel = some s ∧
        Deck.ofText? s.toList = some d ∧ Agrees d p ∧
        d.hasObjective = mixedModel.objective?.isSome ∧
        ∃ st, (Cbc.solve Cbc.goodRun (Text.ofString "cbc") mergedModel).started? = some st ∧
          ∃ folder, Cbc.goodRun.folder = .ok folder ∧ st.modelText = s ∧
            st.arguments = Cbc.callIn folder .maximize := by
  have hnormalized : mixedModel.normalized? = some mergedModel := by decide +kernel
  have hfactors : ∀ t ∈ mergedModel.terms, t.factor.real?.isSome := by decide +kernel
  have hbounds : ∀ v ∈ mixedModel.vars, (∀ k ∈ v.minimum?, k.real?.isSome) ∧
      ∀ k ∈ v.maximum?, k.real?.isSome := by decide +kernel
  have hreal : ∀ t ∈ mergedModel.terms, ∃ x, t.factor.real? = some x := fun t ht =>
    Option.isSome_iff_exists.mp (hfactors t ht)
  obtain ⟨p, s, d, hp, hs, hread, hagrees, hobjective, hstarted⟩ :=
    exists_agrees hnormalized hreal fun v hv =>
      ⟨fun k hk => Option.isSome_iff_exists.mp ((hbounds v hv).1 k hk),
        fun k hk => Option.isSome_iff_exists.mp ((hbounds v hv).2 k hk)⟩
  have hmaximize : p.maximize = true := by
    obtain ⟨_, hs', hread'⟩ := Mps.exists_text mergedModel hreal
    obtain rfl := Option.some.inj (hs.symm.trans hs')
    obtain rfl := Option.some.inj (hread.symm.trans hread')
    exact hagrees.sense.mp rfl
  have hrun : (Cbc.solve Cbc.goodRun (Text.ofString "cbc") mergedModel).started?.isSome :=
    Cbc.isSome_started?_iff.mpr ⟨⟨_, rfl⟩, Cbc.written_of_sound rfl hreal, 0, by decide, [], rfl⟩
  obtain ⟨st, hst⟩ := Option.isSome_iff_exists.mp hrun
  have hcall := hstarted _ _ _ hst
  rw [hmaximize] at hcall
  exact ⟨hnormalized, p, s, d, hp, hs, hread, hagrees, hobjective, st, hst, hcall⟩

end LinearProgram
