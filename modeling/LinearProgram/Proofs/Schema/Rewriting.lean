import Mathlib
import LinearProgram.Description.Model
import LinearProgram.Proofs.Lists
import LinearProgram.Proofs.Schema.Strict
/-!
# What was read is read again

A schema reads a value generously: a number may be given as a text, a field may be left out, a
value may be null.  What it writes for the value is in the one form that needs no generosity, with
every field filled in.  So a good value is the same after it was written and read once more
(`Schema.read_write_of_read`), and every object that is written has exactly the fields of its class
(`Schema.recordAt?_of_at?_write`).

## How the proof goes

Only a few things could keep a value from being read again: a value that is written as null, a
field that hides another, or a default that no input could give.  `Schema.Rewrites` says that a
schema has none of them.  Such a schema gives the values that it admits and no others
(`Schema.Admits`): what was read is admitted (`Schema.admits_of_read`), and what is admitted is
read from what is written for it (`Schema.read_write`).
-/
namespace LinearProgram

/-! ## Schemas that read what they write -/

mutual

/-- Every text of a value is long enough, and what was chosen is found by its name. -/
def Schema.Admits : {α : Type} → Schema α → α → Prop
  | _, .text least, t => least = 0 ∨ t.isWellFormed = true ∧ least ≤ t.length
  | _, .number, _ | _, .truth, _ => True
  | _, .choice choices name, a =>
    choices.find? (fun c => Text.ofString (name c) = Text.ofString (name a)) = some a
  | _, .optional s, a? => ∀ a ∈ a?, s.Admits a
  | _, .list s, as => ∀ a ∈ as, s.Admits a
  | _, .table s, as => ∀ a ∈ as, s.Admits a.2
  | _, .record _ fields _ view _, a => fields.Admits (view a)

/-- The same for the fields of a record. -/
def Fields.Admits : {β : Type} → Fields β → β → Prop
  | _, .done, _ => True
  | _, .field _ s _ rest, b => s.Admits b.1 ∧ rest.Admits b.2

end

mutual

/-- What is optional is not written as null, records are made of their fields, the fields have
different keys, and each default is admitted. -/
def Schema.Rewrites : {α : Type} → Schema α → Prop
  | _, .text _ | _, .number | _, .truth | _, .choice _ _ => True
  | _, .optional s => (∀ a, s.write a ≠ .null) ∧ s.Rewrites
  | _, .list s | _, .table s => s.Rewrites
  | _, .record _ fields make view _ => (∀ b, view (make b) = b) ∧ fields.Rewrites

def Fields.Rewrites : {β : Type} → Fields β → Prop
  | _, .done => True
  | _, .field key s default? rest =>
    (key : Text) ∉ rest.keys ∧ s.Rewrites ∧ (∀ d ∈ default?, s.Admits d) ∧ rest.Rewrites

end

/-! ## Lists and tables -/

theorem Checked.all_eq_ok_iff {α : Type} {as : List (Checked α)} {xs : List α} :
    Checked.all as = .ok xs ↔ List.Forall₂ (fun a? a => a? = .ok a) as xs := by
  induction as generalizing xs with
  | nil => simp [Checked.all, eq_comm]
  | cons a? as ih =>
    rw [Checked.all_cons_eq_ok_iff, List.forall₂_cons_left_iff]
    simp only [ih, eq_comm]

theorem read_array_eq_ok_iff {α : Type} {w : RecordWording} {s : Schema α} {items : List Json}
    {as : List α} : (Schema.list s).read w (.array items) = .ok as ↔
      List.Forall₂ (fun j a => s.read w j = .ok a) items as := by
  conv_rhs => rw [← List.zipIdx_map_fst 0 items, List.forall₂_map_left_iff]
  rw [Schema.read, Checked.all_eq_ok_iff, List.forall₂_map_left_iff]
  simp only [Checked.under_eq_ok_iff]

theorem read_table_eq_ok_iff {α : Type} {w : RecordWording} {s : Schema α}
    {fields : List (Text × Json)} {as : List (Text × α)} :
    (Schema.table s).read w (.object fields) = .ok as ↔
      List.Forall₂ (fun f a => s.read w f.2 = .ok a.2 ∧ f.1 = a.1) fields as := by
  have hfield : ∀ (f : Text × Json) (a : Text × α),
      (Checked.under (.key (shownKey f.1)) (s.read w f.2)).map (fun b => (f.1, b)) = .ok a ↔
        s.read w f.2 = .ok a.2 ∧ f.1 = a.1 := by
    intro f a
    simp [Checked.map_eq_ok_iff, Checked.under_eq_ok_iff, Prod.ext_iff, and_comm]
  rw [Schema.read, Checked.all_eq_ok_iff, List.forall₂_map_left_iff]
  simp only [hfield]

/-! ## Records -/

theorem Text.isWellFormed_ofString (s : String) : (ofString s).isWellFormed = true := by
  simp [isWellFormed, ofString, ofChars, CodePoint.isSurrogate]

theorem Fields.isWellFormed_of_mem_keys : ∀ {β : Type} (fields : Fields β) {k : Text},
    k ∈ fields.keys → k.isWellFormed = true
  | _, .done, _, hk => by cases hk
  | _, .field key _ _ rest, k, hk => by
    rcases List.mem_cons.mp hk with rfl | hk
    · exact Text.isWellFormed_ofString key
    · exact rest.isWellFormed_of_mem_keys hk

theorem Fields.keys_write : ∀ {β : Type} (fields : Fields β) (b : β),
    (fields.write b).map (·.1) = fields.keys
  | _, .done, _ => rfl
  | _, .field key _ _ rest, b => congrArg (Text.ofString key :: ·) (rest.keys_write b.2)

theorem exists_fields_of_read_record {α β : Type} {w : RecordWording} {className : String}
    {fields : Fields β} {make : β → α} {view : α → β} {make_view : ∀ a, make (view a) = a}
    {j : Json} {a : α} (h : (Schema.record className fields make view make_view).read w j = .ok a) :
    ∃ given b, j = .object given ∧ fields.read w given = .ok b ∧ make b = a := by
  obtain ⟨given, _, rfl, hformed, _⟩ := exists_of_read_record h
  rw [read_record_object, if_pos hformed] at h
  obtain ⟨⟨b, _⟩, hboth, hmake⟩ := Checked.map_eq_ok_iff.mp h
  exact ⟨given, b, rfl, (Checked.both_eq_ok_iff.mp hboth).1, hmake⟩

/-- A record is read from what is written for it if its fields are. -/
theorem read_write_record {α β : Type} {w : RecordWording} {className : String}
    {fields : Fields β} {make : β → α} {view : α → β} {make_view : ∀ a, make (view a) = a} {a : α}
    (h : fields.read w (fields.write (view a)) = .ok (view a)) :
    (Schema.record className fields make view make_view).read w
      (.object (fields.write (view a))) = .ok a := by
  have hkeys : ∀ f ∈ fields.write (view a), f.1 ∈ fields.keys := by
    intro f hf
    rw [← fields.keys_write (view a)]
    exact List.mem_map_of_mem hf
  have hformed : (fields.write (view a)).all (·.1.isWellFormed) = true :=
    List.all_eq_true.mpr fun f hf => fields.isWellFormed_of_mem_keys (hkeys f hf)
  rw [read_record_object, if_pos hformed, h, unknownKeys_eq_ok_iff.mpr hkeys]
  exact congrArg Except.ok (make_view a)

/-! ## Values at any depth -/

theorem eq_of_read_text {w : RecordWording} {least : Nat} {j : Json} {t : Text}
    (h : (Schema.text least).read w j = .ok t) : j = .text t := by
  cases j with
  | text u =>
    have hu : Schema.readText least (.text u) = .ok t := h
    simp only [Schema.readText, Checked.wrong] at hu
    split_ifs at hu <;> simp_all
  | _ => cases h

theorem read_text_eq_ok_iff {w : RecordWording} {least : Nat} {t : Text} :
    (Schema.text least).read w (.text t) = .ok t ↔ (Schema.text least).Admits t := by
  show Schema.readText least (.text t) = .ok t ↔
    least = 0 ∨ t.isWellFormed = true ∧ least ≤ t.length
  simp only [Schema.readText, Checked.wrong]
  split_ifs <;> simp_all

/-- A value that is chosen is chosen by its name. -/
theorem eq_of_read_choice {α : Type} {w : RecordWording} {choices : List α} {name : α → String}
    {j : Json} {a : α} (h : (Schema.choice choices name).read w j = .ok a) :
    j = .text (name a) := by
  cases j with
  | text t =>
    have ht : Schema.readChoice choices name (.text t) = .ok a := h
    simp only [Schema.readChoice, Checked.wrong] at ht
    cases hfind : choices.find? fun c => Text.ofString (name c) = t with
    | none =>
      rw [hfind] at ht
      split_ifs at ht
    | some c =>
      rw [hfind] at ht
      split_ifs at ht
      cases ht
      have hname : Text.ofString (name a) = t := by simpa using List.find?_some hfind
      rw [hname]
  | _ => cases h

theorem read_choice_eq_ok_iff {α : Type} {w : RecordWording} {choices : List α}
    {name : α → String} {a : α} : (Schema.choice choices name).read w (.text (name a)) = .ok a ↔
      (Schema.choice choices name).Admits a := by
  show Schema.readChoice choices name (.text (name a)) = .ok a ↔
    choices.find? (fun c => Text.ofString (name c) = Text.ofString (name a)) = some a
  simp only [Schema.readChoice, Text.isWellFormed_ofString, Checked.wrong]
  cases choices.find? fun c => Text.ofString (name c) = Text.ofString (name a) <;> simp

/-- A field has the value that was given for it or its default. -/
theorem cases_of_readField {α : Type} {w : RecordWording} {key : Text} {s : Schema α}
    {default? : Option α} {given : List (Text × Json)} {a : α}
    (h : readField w key s default? given = .ok a) :
    (∃ j, Json.field? given key = some j ∧ s.read w j = .ok a) ∨ default? = some a := by
  unfold readField at h
  split at h
  · next j hj => exact .inl ⟨j, hj, Checked.under_eq_ok_iff.mp h⟩
  · exact .inr (congrArg some (Except.ok.inj h))
  · cases h

mutual

/-- **A value that was read is admitted.** -/
theorem Schema.admits_of_read {w : RecordWording} : ∀ {α : Type} (s : Schema α) {j : Json} {a : α},
    s.Rewrites → s.read w j = .ok a → s.Admits a
  | _, .text _, _, _, _, hread => by
    obtain rfl := eq_of_read_text hread
    exact read_text_eq_ok_iff.mp hread
  | _, .number, _, _, _, _ => trivial
  | _, .truth, _, _, _, _ => trivial
  | _, .choice _ _, _, _, _, hread => by
    obtain rfl := eq_of_read_choice hread
    exact read_choice_eq_ok_iff.mp hread
  | _, .optional s, j, a?, hrewrites, hread => by
    rintro a rfl
    have hj : j ≠ .null := by
      rintro rfl
      cases hread
    rw [read_optional hj] at hread
    obtain ⟨b, hb, hsome⟩ := Checked.map_eq_ok_iff.mp hread
    obtain rfl := Option.some.inj hsome
    exact s.admits_of_read hrewrites.2 hb
  | _, .list s, j, as, hrewrites, hread => by
    cases j with
    | array items =>
      intro a ha
      obtain ⟨j, _, hj⟩ := exists_mem_of_forall₂ (read_array_eq_ok_iff.mp hread).flip ha
      exact s.admits_of_read hrewrites hj
    | _ => cases hread
  | _, .table s, j, as, hrewrites, hread => by
    cases j with
    | object fields =>
      intro a ha
      obtain ⟨f, _, hf, _⟩ := exists_mem_of_forall₂ (read_table_eq_ok_iff.mp hread).flip ha
      exact s.admits_of_read hrewrites hf
    | _ => cases hread
  | _, .record _ fields make view make_view, j, a, hrewrites, hread => by
    obtain ⟨hview, hfields⟩ := hrewrites
    obtain ⟨given, b, rfl, hb, rfl⟩ := exists_fields_of_read_record hread
    show fields.Admits (view (make b))
    rw [hview]
    exact fields.admits_of_read hfields hb

theorem Fields.admits_of_read {w : RecordWording} : ∀ {β : Type} (fields : Fields β)
    {given : List (Text × Json)} {b : β}, fields.Rewrites → fields.read w given = .ok b →
      fields.Admits b
  | _, .done, _, _, _, _ => trivial
  | _, .field key s default? rest, given, (a, b), hrewrites, hread => by
    obtain ⟨_, hs, hdefault, hrest⟩ := hrewrites
    rw [read_field] at hread
    obtain ⟨hvalue, hfields⟩ := Checked.both_eq_ok_iff.mp hread
    refine ⟨?_, rest.admits_of_read hrest hfields⟩
    rcases cases_of_readField hvalue with ⟨j, _, hj⟩ | rfl
    · exact s.admits_of_read hs hj
    · exact hdefault a rfl

end

mutual

/-- **What is admitted is read from what is written for it.** -/
theorem Schema.read_write {w : RecordWording} : ∀ {α : Type} (s : Schema α) {a : α},
    s.Rewrites → s.Admits a → s.read w (s.write a) = .ok a
  | _, .text _, _, _, hadmits => read_text_eq_ok_iff.mpr hadmits
  | _, .number, _, _, _ => rfl
  | _, .truth, _, _, _ => rfl
  | _, .choice _ _, _, _, hadmits => read_choice_eq_ok_iff.mpr hadmits
  | _, .optional s, none, _, _ => rfl
  | _, .optional s, some a, hrewrites, hadmits => by
    obtain ⟨hnull, hs⟩ := hrewrites
    show (Schema.optional s).read w (s.write a) = _
    rw [read_optional (hnull a), s.read_write hs (hadmits a rfl)]
    rfl
  | _, .list s, as, hrewrites, hadmits => by
    rw [Schema.write, read_array_eq_ok_iff, List.forall₂_map_left_iff, List.forall₂_same]
    exact fun a ha => s.read_write hrewrites (hadmits a ha)
  | _, .table s, as, hrewrites, hadmits => by
    rw [Schema.write, read_table_eq_ok_iff, List.forall₂_map_left_iff, List.forall₂_same]
    exact fun a ha => ⟨s.read_write hrewrites (hadmits a ha), rfl⟩
  | _, .record _ fields _ _ _, _, hrewrites, hadmits =>
    read_write_record (fields.read_write hrewrites.2 hadmits)

theorem Fields.read_write {w : RecordWording} : ∀ {β : Type} (fields : Fields β) {b : β},
    fields.Rewrites → fields.Admits b → fields.read w (fields.write b) = .ok b
  | _, .done, _, _, _ => rfl
  | _, .field key s default? rest, (a, b), hrewrites, hadmits => by
    obtain ⟨hkey, hs, _, hrest⟩ := hrewrites
    obtain ⟨ha, hb⟩ := hadmits
    -- No later field has this key, so they are read as if this one was not there.
    have hothers : ∀ k ∈ rest.keys, Json.field? ((key, s.write a) :: rest.write b) k =
        Json.field? (rest.write b) k := by
      intro k hk
      refine Json.field?_of_ne [] _ (s.write a) ?_
      rintro rfl
      exact hkey hk
    show (Fields.field key s default? rest).read w ((Text.ofString key, s.write a) :: rest.write b)
      = .ok (a, b)
    rw [read_field, readField_of_some (j := s.write a) (by simp [Json.field?]),
      s.read_write hs ha, Fields.read_congr hothers (rest.read_write hrest hb)]
    rfl

end

/-- What was read is read again, whatever the words for problems are. -/
theorem Schema.read_write_of_read {α : Type} {s : Schema α} (hrewrites : s.Rewrites)
    {w w' : RecordWording} {j : Json} {a : α} (hread : s.read w j = .ok a) :
    s.read w' (s.write a) = .ok a :=
  s.read_write hrewrites (s.admits_of_read hrewrites hread)

/-- Exactly what is admitted can be read. -/
theorem Schema.exists_read_iff {α : Type} {s : Schema α} (hrewrites : s.Rewrites)
    {w : RecordWording} {a : α} : (∃ j, s.read w j = .ok a) ↔ s.Admits a :=
  ⟨fun ⟨_, hread⟩ => s.admits_of_read hrewrites hread,
    fun hadmits => ⟨s.write a, s.read_write hrewrites hadmits⟩⟩

/-! ## Every field is filled in -/

mutual

/-- **Every object that is written has the fields of its class**, all of them, in order. -/
theorem Schema.recordAt?_of_at?_write {fs : List (Text × Json)} : ∀ {α : Type} (s : Schema α)
    {path : List PathStep} {a : α}, s.isStrict = true →
    (s.write a).at? path = some (.object fs) →
      ∃ className, s.recordAt? path = some (className, fs.map (·.1))
  | _, .text _, path, _, _, hat => by
    obtain ⟨_, h⟩ | ⟨_, h⟩ := Json.isObject_or_isArray_of_at? hat <;> cases h
  | _, .number, path, _, _, hat => by
    obtain ⟨_, h⟩ | ⟨_, h⟩ := Json.isObject_or_isArray_of_at? hat <;> cases h
  | _, .truth, path, _, _, hat => by
    obtain ⟨_, h⟩ | ⟨_, h⟩ := Json.isObject_or_isArray_of_at? hat <;> cases h
  | _, .choice _ _, path, _, _, hat => by
    obtain ⟨_, h⟩ | ⟨_, h⟩ := Json.isObject_or_isArray_of_at? hat <;> cases h
  | _, .table _, _, _, hstrict, _ => by cases hstrict
  | _, .optional s, path, a?, hstrict, hat => by
    cases a? with
    | none => obtain ⟨_, h⟩ | ⟨_, h⟩ := Json.isObject_or_isArray_of_at? hat <;> cases h
    | some a => exact s.recordAt?_of_at?_write hstrict hat
  | _, .list s, path, as, hstrict, hat => by
    match path, hat with
    | .index n :: path, hat =>
      obtain ⟨j, hj, hrest⟩ := Option.bind_eq_some_iff.mp hat
      rw [List.getElem?_map, Option.map_eq_some_iff] at hj
      obtain ⟨a, _, rfl⟩ := hj
      exact s.recordAt?_of_at?_write hstrict hrest
  | _, .record className fields make view _, path, a, hstrict, hat => by
    match path, hat with
    | [], hat =>
      obtain rfl := Json.object.inj (Option.some.inj hat)
      exact ⟨className, by rw [fields.keys_write, Schema.recordAt?]⟩
    | .key k :: path, hat =>
      obtain ⟨j, hj, hrest⟩ := Option.bind_eq_some_iff.mp hat
      exact fields.recordAt?_of_at?_write hstrict hj hrest

theorem Fields.recordAt?_of_at?_write {fs : List (Text × Json)} : ∀ {β : Type}
    (fields : Fields β) {k : Text} {path : List PathStep} {j : Json} {b : β},
    fields.isStrict = true → Json.field? (fields.write b) k = some j →
    j.at? path = some (.object fs) →
      ∃ className, fields.recordAt? k path = some (className, fs.map (·.1))
  | _, .done, _, _, _, _, _, hj, _ => by cases hj
  | _, .field key s _ rest, k, path, j, b, hstrict, hj, hat => by
    obtain ⟨_, hs, hfields⟩ := Fields.isStrict_field_iff.mp hstrict
    unfold Fields.recordAt?
    by_cases hk : (key : Text) = k
    · rw [if_pos hk]
      have hwrite : s.write b.1 = j := by simpa [Fields.write, Json.field?, hk] using hj
      subst hwrite
      exact s.recordAt?_of_at?_write hs hat
    · rw [if_neg hk]
      have hother : Json.field? (rest.write b.2) k = some j := by
        simpa [Fields.write, Json.field?, hk] using hj
      exact rest.recordAt?_of_at?_write hfields hother hat

end

/-! ## Models and requests -/

section

variable {α β : Type} {key : String} {s : Schema α} {rest : Fields β}

theorem Fields.rewrites_required (hkey : (key : Text) ∉ rest.keys) (hs : s.Rewrites)
    (hrest : rest.Rewrites) : (Fields.field key s none rest).Rewrites :=
  ⟨hkey, hs, nofun, hrest⟩

theorem Fields.rewrites_field {d : α} (hkey : (key : Text) ∉ rest.keys) (hs : s.Rewrites)
    (hd : s.Admits d) (hrest : rest.Rewrites) : (Fields.field key s (some d) rest).Rewrites :=
  ⟨hkey, hs, fun _ h => Option.some.inj h ▸ hd, hrest⟩

end

namespace Description

theorem admits_domainSchema (d : Domain) : domainSchema.Admits d := by
  cases d <;> exact rfl

theorem admits_comparisonSchema (c : Comparison) : comparisonSchema.Admits c := by
  cases c <;> exact rfl

theorem admits_optimizationSchema (o : Optimization) : optimizationSchema.Admits o := by
  cases o <;> exact rfl

theorem admits_solverSchema (k : SolverKind) : solverSchema.Admits k := by
  cases k <;> exact rfl

theorem admits_variableSchema (v : Variable) : variableSchema.Admits v :=
  ⟨.inl rfl, admits_domainSchema v.domain, fun _ _ => trivial, fun _ _ => trivial, trivial⟩

theorem admits_functionSchema (f : Function) : functionSchema.Admits f :=
  ⟨fun _ _ => ⟨.inl rfl, trivial, trivial⟩, trivial, trivial⟩

theorem admits_objectiveSchema (o : Objective) : objectiveSchema.Admits o :=
  ⟨admits_functionSchema o.function, admits_optimizationSchema o.optimization, trivial⟩

theorem admits_constraintSchema (c : Constraint) : constraintSchema.Admits c :=
  ⟨admits_functionSchema c.function, admits_comparisonSchema c.comparison, trivial, .inl rfl,
    trivial⟩

/-- Every model is admitted that has a name of characters. -/
theorem admits_modelSchema_iff {m : Model} :
    modelSchema.Admits m ↔ m.name.isWellFormed = true ∧ m.name ≠ [] := by
  constructor
  · rintro ⟨hname | ⟨hwf, hlength⟩, _⟩
    · cases hname
    · exact ⟨hwf, List.ne_nil_of_length_pos hlength⟩
  · rintro ⟨hwf, hname⟩
    exact ⟨.inr ⟨hwf, List.length_pos_iff.mpr hname⟩, fun v _ => admits_variableSchema v,
      fun o _ => admits_objectiveSchema o, fun c _ => admits_constraintSchema c, trivial⟩

theorem admits_requestSchema_iff {r : Request} :
    requestSchema.Admits r ↔ modelSchema.Admits r.model :=
  ⟨fun h => h.1, fun h => ⟨h, ⟨admits_solverSchema r.options.solver, trivial⟩, trivial⟩⟩

theorem rewrites_functionSchema : functionSchema.Rewrites :=
  have hterm : termSchema.Rewrites :=
    ⟨fun _ => rfl, Fields.rewrites_required (by decide) trivial <|
      Fields.rewrites_field (by decide) trivial trivial trivial⟩
  ⟨fun _ => rfl, Fields.rewrites_field (by decide) hterm nofun <|
    Fields.rewrites_field (by decide) trivial trivial trivial⟩

theorem rewrites_variableSchema : variableSchema.Rewrites :=
  have hbound : (Schema.optional .number).Rewrites := ⟨fun _ => Json.noConfusion, trivial⟩
  ⟨fun _ => rfl, Fields.rewrites_required (by decide) trivial <|
    Fields.rewrites_field (by decide) trivial (admits_domainSchema _) <|
    Fields.rewrites_field (by decide) hbound nofun <|
    Fields.rewrites_field (by decide) hbound nofun trivial⟩

theorem rewrites_objectiveSchema : objectiveSchema.Rewrites :=
  ⟨fun _ => rfl, Fields.rewrites_required (by decide) rewrites_functionSchema <|
    Fields.rewrites_field (by decide) trivial (admits_optimizationSchema _) trivial⟩

theorem rewrites_constraintSchema : constraintSchema.Rewrites :=
  ⟨fun _ => rfl, Fields.rewrites_required (by decide) rewrites_functionSchema <|
    Fields.rewrites_field (by decide) trivial (admits_comparisonSchema _) <|
    Fields.rewrites_field (by decide) trivial trivial <|
    Fields.rewrites_field (by decide) trivial (.inl rfl) trivial⟩

theorem rewrites_modelSchema : modelSchema.Rewrites :=
  have hobjective : (Schema.optional objectiveSchema).Rewrites :=
    ⟨fun _ => Json.noConfusion, rewrites_objectiveSchema⟩
  ⟨fun _ => rfl, Fields.rewrites_required (by decide) trivial <|
    Fields.rewrites_field (by decide) rewrites_variableSchema nofun <|
    Fields.rewrites_field (by decide) hobjective nofun <|
    Fields.rewrites_field (by decide) rewrites_constraintSchema nofun trivial⟩

theorem rewrites_requestSchema : requestSchema.Rewrites :=
  have hoptions : optionsSchema.Rewrites :=
    ⟨fun _ => rfl, Fields.rewrites_field (by decide) trivial (admits_solverSchema _) trivial⟩
  ⟨fun _ => rfl, Fields.rewrites_required (by decide) rewrites_modelSchema <|
    Fields.rewrites_field (by decide) hoptions ⟨admits_solverSchema _, trivial⟩ trivial⟩

end Description

end LinearProgram
