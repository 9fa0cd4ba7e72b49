import Mathlib
import LinearProgram.Description
/-!
# Unknown keys are refused at every depth

A record has its fields and no others.  So when a JSON value is good, and one key that is no
field is put into any of its objects, the value is refused with exactly one problem, whose path
leads to the object and ends with the key.  A key with a surrogate cannot be shown as such: then
the one problem is that of the object.

## How the proof goes

`recordAt?` follows a path through a schema, as reading follows it through a value, so every object
in a good value stands for a record (`exists_recordAt?`).  Reading the value with the further key
goes the same way and fails in the record alone (`refusedFor_of_gains`): everything beside the
path is read as before, since no other field looks at what has changed.
-/
namespace LinearProgram

/-! ## Places in a value -/

namespace Json

/-- What stands at the end of a path; where a key is repeated, it leads to the first value. -/
def at? : Json → List PathStep → Option Json
  | j, [] => some j
  | .object fields, .key k :: path => (field? fields k).bind (·.at? path)
  | .array items, .index n :: path => items[n]?.bind (·.at? path)
  | _, _ :: _ => none

/-- The second value is the first one with one more key in the object at the end of a path. -/
inductive Gains (key : Text) (value : Json) : List PathStep → Json → Json → Prop where
  | here (fs gs : List (Text × Json)) :
    Gains key value [] (.object (fs ++ gs)) (.object (fs ++ (key, value) :: gs))
  | field {k : Text} {fs : List (Text × Json)} {path : List PathStep} {j j' : Json}
      (hfirst : ∀ f ∈ fs, f.1 ≠ k) (gs : List (Text × Json)) (h : Gains key value path j j') :
    Gains key value (.key k :: path) (.object (fs ++ (k, j) :: gs)) (.object (fs ++ (k, j') :: gs))
  | item {is : List Json} {path : List PathStep} {j j' : Json} (js : List Json)
      (h : Gains key value path j j') :
    Gains key value (.index is.length :: path) (.array (is ++ j :: js)) (.array (is ++ j' :: js))

theorem field?_eq_some_iff {fields : List (Text × Json)} {k : Text} {j : Json} :
    field? fields k = some j ↔
      ∃ fs gs, fields = fs ++ (k, j) :: gs ∧ ∀ f ∈ fs, f.1 ≠ k := by
  simp only [field?, Option.map_eq_some_iff, List.find?_eq_some_iff_append, decide_eq_true_eq,
    Bool.not_eq_true', decide_eq_false_iff_not]
  constructor
  · rintro ⟨⟨_, _⟩, ⟨rfl, fs, gs, rfl, hfirst⟩, rfl⟩
    exact ⟨fs, gs, rfl, hfirst⟩
  · rintro ⟨fs, gs, rfl, hfirst⟩
    exact ⟨_, ⟨rfl, fs, gs, rfl, hfirst⟩, rfl⟩

/-- A field that is changed or added is no other field. -/
theorem field?_of_ne (fs gs : List (Text × Json)) {k k' : Text} (j : Json) (hne : k ≠ k') :
    field? (fs ++ (k, j) :: gs) k' = field? (fs ++ gs) k' := by
  simp [field?, List.find?_append, hne]

theorem exists_split_of_getElem? {α : Type} {xs : List α} {n : Nat} {x : α} (h : xs[n]? = some x) :
    ∃ as bs, xs = as ++ x :: bs ∧ as.length = n := by
  obtain ⟨hn, rfl⟩ := List.getElem?_eq_some_iff.mp h
  refine ⟨xs.take n, xs.drop (n + 1), ?_, List.length_take_of_le hn.le⟩
  rw [List.getElem_cons_drop, List.take_append_drop]

/-- In every object a key can be put. -/
theorem exists_gains (key : Text) (value : Json) : ∀ {path : List PathStep} {j : Json}
    {fs : List (Text × Json)}, j.at? path = some (.object fs) → ∃ j', Gains key value path j j'
  | [], j, fs, h => by
    obtain rfl := Option.some.inj h
    exact ⟨_, .here [] fs⟩
  | .key k :: path, j, fs, h => by
    cases j with
    | object fields =>
      obtain ⟨j, hj, hrest⟩ := Option.bind_eq_some_iff.mp h
      obtain ⟨as, bs, rfl, hfirst⟩ := field?_eq_some_iff.mp hj
      obtain ⟨j', hgains⟩ := exists_gains key value hrest
      exact ⟨_, .field hfirst bs hgains⟩
    | _ => cases h
  | .index n :: path, j, fs, h => by
    cases j with
    | array items =>
      obtain ⟨j, hj, hrest⟩ := Option.bind_eq_some_iff.mp h
      obtain ⟨as, bs, rfl, rfl⟩ := exists_split_of_getElem? hj
      obtain ⟨j', hgains⟩ := exists_gains key value hrest
      exact ⟨_, .item bs hgains⟩
    | _ => cases h

end Json

/-! ## Places in a schema -/

mutual

/-- The class and the keys of the record that stands at the end of a path. -/
def Schema.recordAt? : {α : Type} → Schema α → List PathStep → Option (String × List Text)
  | _, .text _, _ | _, .number, _ | _, .truth, _ | _, .choice _ _, _ | _, .table _, _ => none
  | _, .optional s, path => s.recordAt? path
  | _, .list s, path =>
    match path with
    | .index _ :: path => s.recordAt? path
    | _ => none
  | _, .record className fields _ _ _, path =>
    match path with
    | [] => some (className, fields.keys)
    | .key k :: path => fields.recordAt? k path
    | .index _ :: _ => none

/-- The same for a path into the field with a key. -/
def Fields.recordAt? : {β : Type} → Fields β → Text → List PathStep → Option (String × List Text)
  | _, .done, _, _ => none
  | _, .field key s _ rest, k, path =>
    if (key : Text) = k then s.recordAt? path else rest.recordAt? k path

end

mutual

/-- Whether no object has free keys and no record two fields with the same key. -/
def Schema.isStrict : {α : Type} → Schema α → Bool
  | _, .text _ | _, .number | _, .truth | _, .choice _ _ => true
  | _, .optional s => s.isStrict
  | _, .list s => s.isStrict
  | _, .table _ => false
  | _, .record _ fields _ _ _ => fields.isStrict

def Fields.isStrict : {β : Type} → Fields β → Bool
  | _, .done => true
  | _, .field key s _ rest => !rest.keys.contains (key : Text) && s.isStrict && rest.isStrict

end

theorem Fields.isStrict_field_iff {α β : Type} {key : String} {s : Schema α} {default? : Option α}
    {rest : Fields β} : (Fields.field key s default? rest).isStrict = true ↔
      (key : Text) ∉ rest.keys ∧ s.isStrict = true ∧ rest.isStrict = true := by
  simp [Fields.isStrict, and_assoc]

/-! ## Values that are good -/

namespace Checked

variable {α β : Type}

theorem both_eq_ok_iff {a? : Checked α} {b? : Checked β} {p : α × β} :
    both a? b? = .ok p ↔ a? = .ok p.1 ∧ b? = .ok p.2 := by
  cases a? <;> cases b? <;> simp [both, Prod.ext_iff]

theorem map_eq_ok_iff {a? : Checked α} {f : α → β} {b : β} :
    a?.map f = .ok b ↔ ∃ a, a? = .ok a ∧ f a = b := by
  cases a? <;> simp [Except.map]

theorem under_eq_ok_iff {step : PathStep} {a? : Checked α} {a : α} :
    under step a? = .ok a ↔ a? = .ok a := by
  cases a? <;> simp [under]

theorem all_cons_eq_ok_iff {a? : Checked α} {as : List (Checked α)} {xs : List α} :
    all (a? :: as) = .ok xs ↔ ∃ y ys, a? = .ok y ∧ all as = .ok ys ∧ y :: ys = xs := by
  simp only [all, map_eq_ok_iff, both_eq_ok_iff, Prod.exists, and_assoc]

/-- The values of a list are good together only if each is. -/
theorem eq_ok_of_all {as bs : List (Checked α)} {a? : Checked α} {xs : List α}
    (h : all (as ++ a? :: bs) = .ok xs) : ∃ x, a? = .ok x := by
  induction as generalizing xs with
  | nil =>
    obtain ⟨x, _, hx, _⟩ := all_cons_eq_ok_iff.mp h
    exact ⟨x, hx⟩
  | cons _ as ih =>
    obtain ⟨_, _, _, hrest, _⟩ := all_cons_eq_ok_iff.mp h
    exact ih hrest

end Checked

/-! ## One problem -/

/-- The problem with an unknown key: it is that of the key with its value, unless the key has a
surrogate; then it is that of the whole object at the end of the path. -/
structure Tells (key : Text) (value : Json) (path : List PathStep) (p : Problem) : Prop where
  extra : key.isWellFormed = true → p = ⟨path ++ [.key key], .extra, value⟩
  notUnicode : key.isWellFormed = false → p.path = path ∧ p.kind = .notUnicode

/-- A value is refused for an unknown key and for nothing else. -/
def RefusedFor {α : Type} (key : Text) (value : Json) (path : List PathStep) (c : Checked α) :
    Prop :=
  ∃ p, c = .error [p] ∧ Tells key value path p

namespace RefusedFor

variable {α β : Type} {key : Text} {value : Json} {path : List PathStep} {c : Checked α}

theorem under (step : PathStep) (h : RefusedFor key value path c) :
    RefusedFor key value (step :: path) (Checked.under step c) := by
  obtain ⟨p, rfl, hextra, hunicode⟩ := h
  refine ⟨{ p with path := step :: p.path }, rfl, fun hkey => ?_, fun hkey => ?_⟩
  · rw [hextra hkey]
    rfl
  · obtain ⟨rfl, hkind⟩ := hunicode hkey
    exact ⟨rfl, hkind⟩

theorem map (f : α → β) (h : RefusedFor key value path c) :
    RefusedFor key value path (c.map f) := by
  obtain ⟨p, rfl, hp⟩ := h
  exact ⟨p, rfl, hp⟩

theorem both_ok (h : RefusedFor key value path c) (b : β) :
    RefusedFor key value path (Checked.both c (.ok b)) := by
  obtain ⟨p, rfl, hp⟩ := h
  exact ⟨p, rfl, hp⟩

theorem ok_both (b : β) (h : RefusedFor key value path c) :
    RefusedFor key value path (Checked.both (.ok b) c) := by
  obtain ⟨p, rfl, hp⟩ := h
  exact ⟨p, rfl, hp⟩

/-- One value of a list is refused, and the others are good. -/
theorem all {as bs : List (Checked α)} {a? : Checked α} {xs : List α}
    (hall : Checked.all (as ++ a? :: bs) = .ok xs) (h : RefusedFor key value path c) :
    RefusedFor key value path (Checked.all (as ++ c :: bs)) := by
  induction as generalizing xs with
  | nil =>
    obtain ⟨_, ys, _, hrest, _⟩ := Checked.all_cons_eq_ok_iff.mp hall
    rw [List.nil_append, Checked.all, hrest]
    exact (h.both_ok ys).map _
  | cons b? as ih =>
    obtain ⟨y, _, rfl, hrest, _⟩ := Checked.all_cons_eq_ok_iff.mp hall
    exact ((ih hrest).ok_both y).map _

end RefusedFor

/-! ## Reading -/

theorem filter_unknown_eq_nil_iff {known : List Text} {fields : List (Text × Json)} :
    fields.filter (!known.contains ·.1) = [] ↔ ∀ f ∈ fields, f.1 ∈ known := by
  simp [List.filter_eq_nil_iff]

/-- No key is unknown if all keys are those of fields. -/
theorem unknownKeys_eq_ok_iff {known : List Text} {fields : List (Text × Json)} :
    unknownKeys known fields = .ok () ↔ ∀ f ∈ fields, f.1 ∈ known := by
  rw [← filter_unknown_eq_nil_iff, unknownKeys]
  cases fields.filter (!known.contains ·.1) <;> simp

/-- The only unknown key is the one that was added. -/
theorem unknownKeys_of_added {known : List Text} {fs gs : List (Text × Json)} {key : Text}
    (value : Json) (h : unknownKeys known (fs ++ gs) = .ok ()) (hkey : key ∉ known) :
    unknownKeys known (fs ++ (key, value) :: gs) = .error [⟨[.key key], .extra, value⟩] := by
  obtain ⟨hfs, hgs⟩ := List.forall_mem_append.mp (unknownKeys_eq_ok_iff.mp h)
  rw [unknownKeys, List.filter_append, filter_unknown_eq_nil_iff.mpr hfs,
    List.filter_cons_of_pos (by simpa using hkey), filter_unknown_eq_nil_iff.mpr hgs]
  rfl

/-- The value of one field. -/
def readField {α : Type} (w : RecordWording) (key : Text) (s : Schema α) (default? : Option α)
    (given : List (Text × Json)) : Checked α :=
  match Json.field? given key, default? with
  | some j, _ => Checked.under (.key key) (s.read w j)
  | none, some d => .ok d
  | none, none => .error [⟨[.key key], .missing, .object given⟩]

theorem read_field {α β : Type} (w : RecordWording) (key : String) (s : Schema α)
    (default? : Option α) (rest : Fields β) (given : List (Text × Json)) :
    (Fields.field key s default? rest).read w given =
      Checked.both (readField w key s default? given) (rest.read w given) := rfl

section

variable {w : RecordWording} {given given' : List (Text × Json)}

theorem readField_of_some {α : Type} {key : Text} {s : Schema α} {default? : Option α} {j : Json}
    (h : Json.field? given key = some j) :
    readField w key s default? given = Checked.under (.key key) (s.read w j) := by
  unfold readField
  rw [h]

theorem readField_congr {α : Type} {key : Text} {s : Schema α} {default? : Option α} {a : α}
    (hsame : Json.field? given' key = Json.field? given key)
    (h : readField w key s default? given = .ok a) : readField w key s default? given' = .ok a := by
  unfold readField at h ⊢
  rw [hsame]
  cases hj : Json.field? given key with
  | some j => rw [hj] at h; exact h
  | none =>
    rw [hj] at h
    cases default? with
    | some d => exact h
    | none => cases h

/-- Fields are read alike from objects that have the same values for their keys. -/
theorem Fields.read_congr : ∀ {β : Type} {fields : Fields β} {b : β},
    (∀ k ∈ fields.keys, Json.field? given' k = Json.field? given k) →
    fields.read w given = .ok b → fields.read w given' = .ok b
  | _, .done, _, _, h => h
  | _, .field key s default? rest, b, hsame, h => by
    obtain ⟨hkey, hrest⟩ := List.forall_mem_cons.mp hsame
    rw [read_field] at h ⊢
    obtain ⟨hvalue, hfields⟩ := Checked.both_eq_ok_iff.mp h
    exact Checked.both_eq_ok_iff.mpr
      ⟨readField_congr hkey hvalue, Fields.read_congr hrest hfields⟩

end

section

variable {α β : Type} {w : RecordWording} {className : String} {fields : Fields β} {make : β → α}
  {view : α → β} {make_view : ∀ a, make (view a) = a}

theorem read_record_object (given : List (Text × Json)) :
    (Schema.record className fields make view make_view).read w (.object given) =
      if given.all (·.1.isWellFormed) = true then
        (Checked.both (fields.read w given) (unknownKeys fields.keys given)).map fun p => make p.1
      else Checked.wrong .notUnicode (.object given) := by
  rw [Schema.read]
  cases given.all (·.1.isWellFormed) <;> rfl

/-- A record is read from an object whose keys are texts without surrogates and those of fields. -/
theorem exists_of_read_record {j : Json} {a : α}
    (h : (Schema.record className fields make view make_view).read w j = .ok a) :
    ∃ given b, j = .object given ∧ given.all (·.1.isWellFormed) = true ∧
      fields.read w given = .ok b ∧ unknownKeys fields.keys given = .ok () := by
  cases j with
  | object given =>
    rw [read_record_object] at h
    split_ifs at h with hformed
    swap
    · cases h
    obtain ⟨⟨b, _⟩, hboth, _⟩ := Checked.map_eq_ok_iff.mp h
    obtain ⟨hfields, hkeys⟩ := Checked.both_eq_ok_iff.mp hboth
    exact ⟨given, b, rfl, hformed, hfields, hkeys⟩
  | _ => cases h

/-- **One more key in the object of a record** is refused, and nothing else is. -/
theorem refusedFor_of_added {fs gs : List (Text × Json)} {key : Text} (value : Json) {a : α}
    (h : (Schema.record className fields make view make_view).read w (.object (fs ++ gs)) = .ok a)
    (hkey : key ∉ fields.keys) :
    RefusedFor key value []
      ((Schema.record className fields make view make_view).read w
        (.object (fs ++ (key, value) :: gs))) := by
  obtain ⟨_, b, hgiven, hformed, hfields, hkeys⟩ := exists_of_read_record h
  obtain rfl := Json.object.inj hgiven
  have hsame : ∀ k ∈ fields.keys,
      Json.field? (fs ++ (key, value) :: gs) k = Json.field? (fs ++ gs) k := by
    intro k hk
    refine Json.field?_of_ne fs gs value ?_
    rintro rfl
    exact hkey hk
  rw [read_record_object]
  rw [List.all_append, Bool.and_eq_true] at hformed
  simp only [List.all_append, List.all_cons, hformed.1, hformed.2, Bool.true_and, Bool.and_true]
  split_ifs with hword
  · rw [Fields.read_congr hsame hfields, unknownKeys_of_added value hkeys hkey]
    exact ⟨_, rfl, fun _ => rfl, fun hnot => absurd hword (by simp [hnot])⟩
  · exact ⟨_, rfl, fun hyes => absurd hyes hword, fun _ => ⟨rfl, rfl⟩⟩

end

theorem Json.Gains.ne_null {key : Text} {value j j' : Json} {path : List PathStep}
    (h : Json.Gains key value path j j') : j ≠ .null ∧ j' ≠ .null := by
  cases h <;> exact ⟨Json.noConfusion, Json.noConfusion⟩

theorem read_optional {α : Type} {w : RecordWording} {s : Schema α} {j : Json} (h : j ≠ .null) :
    (Schema.optional s).read w j = (s.read w j).map some := by
  rw [Schema.read]
  exact h

/-- Items are read each under its position. -/
theorem read_list_append {α : Type} (w : RecordWording) (s : Schema α) (is js : List Json) :
    ∃ as bs, ∀ j, (Schema.list s).read w (.array (is ++ j :: js)) =
      Checked.all (as ++ Checked.under (.index is.length) (s.read w j) :: bs) := by
  let item (p : Json × Nat) : Checked α := Checked.under (.index p.2) (s.read w p.1)
  refine ⟨is.zipIdx.map item, (js.zipIdx (is.length + 1)).map item, fun j => ?_⟩
  rw [Schema.read, List.zipIdx_append, List.map_append, List.zipIdx_cons, List.map_cons,
    Nat.zero_add]

mutual

/-- **One more key in a record at any depth** is refused, and nothing else is. -/
theorem Schema.refusedFor_of_gains {w : RecordWording} {key : Text} {value : Json}
    {className : String} {keys : List Text} (hkey : key ∉ keys) :
    ∀ {α : Type} (s : Schema α) {path : List PathStep} {j j' : Json} {a : α}, s.isStrict = true →
      s.recordAt? path = some (className, keys) → s.read w j = .ok a →
      Json.Gains key value path j j' → RefusedFor key value path (s.read w j')
  | _, .text _, _, _, _, _, _, hrecord, _, _ => by cases hrecord
  | _, .number, _, _, _, _, _, hrecord, _, _ => by cases hrecord
  | _, .truth, _, _, _, _, _, hrecord, _, _ => by cases hrecord
  | _, .choice _ _, _, _, _, _, _, hrecord, _, _ => by cases hrecord
  | _, .table _, _, _, _, _, hstrict, _, _, _ => by cases hstrict
  | _, .optional s, path, j, j', a, hstrict, hrecord, hread, hgains => by
    obtain ⟨hj, hj'⟩ := hgains.ne_null
    rw [read_optional hj] at hread
    rw [read_optional hj']
    obtain ⟨b, hb, _⟩ := Checked.map_eq_ok_iff.mp hread
    exact (s.refusedFor_of_gains hkey hstrict hrecord hb hgains).map some
  | _, .list s, path, j, j', a, hstrict, hrecord, hread, hgains => by
    cases hgains with
    | here fs gs => cases hrecord
    | field hfirst gs h => cases hrecord
    | @item is path j j' js h =>
      obtain ⟨as, bs, hall⟩ := read_list_append w s is js
      rw [hall] at hread ⊢
      obtain ⟨x, hx⟩ := Checked.eq_ok_of_all hread
      have hitem := s.refusedFor_of_gains hkey hstrict hrecord (Checked.under_eq_ok_iff.mp hx) h
      exact .all hread (hitem.under _)
  | _, .record _ fields make view make_view, path, j, j', a, hstrict, hrecord, hread, hgains => by
    cases hgains with
    | here fs gs =>
      cases hrecord
      exact refusedFor_of_added value hread hkey
    | @field k fs path j j' hfirst gs h =>
      obtain ⟨_, b, hgiven, hformed, hfields, hkeys⟩ := exists_of_read_record hread
      obtain rfl := Json.object.inj hgiven
      have hunknown : unknownKeys fields.keys (fs ++ (k, j') :: gs) = .ok () := by
        rw [unknownKeys_eq_ok_iff, List.forall_mem_append, List.forall_mem_cons] at hkeys ⊢
        exact hkeys
      have hrest := fields.refusedFor_of_gains hkey hstrict hrecord hfirst hfields h
      rw [read_record_object, if_pos (by simpa using hformed), hunknown]
      exact (hrest.both_ok ()).map _
    | item js h => cases hrecord

/-- The same for the record at the end of a path into a field. -/
theorem Fields.refusedFor_of_gains {w : RecordWording} {key : Text} {value : Json}
    {className : String} {keys : List Text} (hkey : key ∉ keys) :
    ∀ {β : Type} (fields : Fields β) {k : Text} {fs gs : List (Text × Json)} {path : List PathStep}
      {j j' : Json} {b : β}, fields.isStrict = true →
      fields.recordAt? k path = some (className, keys) → (∀ f ∈ fs, f.1 ≠ k) →
      fields.read w (fs ++ (k, j) :: gs) = .ok b → Json.Gains key value path j j' →
      RefusedFor key value (.key k :: path) (fields.read w (fs ++ (k, j') :: gs))
  | _, .done, _, _, _, _, _, _, _, _, hrecord, _, _, _ => by cases hrecord
  | _, .field name s default? rest, k, fs, gs, path, j, j', b, hstrict, hrecord, hfirst, hread,
      hgains => by
    rw [read_field] at hread ⊢
    obtain ⟨hvalue, hrest⟩ := Checked.both_eq_ok_iff.mp hread
    obtain ⟨hname, hs, hfields⟩ := Fields.isStrict_field_iff.mp hstrict
    have hother : ∀ k', k ≠ k' → Json.field? (fs ++ (k, j') :: gs) k' =
        Json.field? (fs ++ (k, j) :: gs) k' := by
      intro k' hne
      rw [Json.field?_of_ne fs gs j' hne, Json.field?_of_ne fs gs j hne]
    unfold Fields.recordAt? at hrecord
    split_ifs at hrecord with hk
    · -- The path leads into this field, and no other has its key.
      subst hk
      have hfound : ∀ j, Json.field? (fs ++ ((name : Text), j) :: gs) name = some j := fun j =>
        Json.field?_eq_some_iff.mpr ⟨fs, gs, rfl, hfirst⟩
      have hsame := Fields.read_congr
        (fun k' hk' => hother k' fun heq => hname (heq ▸ hk')) hrest
      rw [readField_of_some (hfound j)] at hvalue
      rw [readField_of_some (hfound j'), hsame]
      have hinner :=
        s.refusedFor_of_gains hkey hs hrecord (Checked.under_eq_ok_iff.mp hvalue) hgains
      exact (hinner.under _).both_ok _
    · rw [readField_congr (hother name (Ne.symm hk)) hvalue]
      exact (rest.refusedFor_of_gains hkey hfields hrecord hfirst hrest hgains).ok_both _

end

/-! ## Every object is a record -/

/-- A path leads into objects and arrays only. -/
theorem Json.isObject_or_isArray_of_at? {j : Json} {path : List PathStep}
    {fs : List (Text × Json)} (h : j.at? path = some (.object fs)) :
    (∃ fields, j = .object fields) ∨ ∃ items, j = .array items := by
  cases j with
  | object fields => exact .inl ⟨fields, rfl⟩
  | array items => exact .inr ⟨items, rfl⟩
  | _ =>
    cases path with
    | nil => cases h
    | cons step path => cases step <;> cases h

mutual

/-- **In a good value every object stands for a record.** -/
theorem Schema.exists_recordAt? {w : RecordWording} {fs : List (Text × Json)} :
    ∀ {α : Type} (s : Schema α) {path : List PathStep} {j : Json} {a : α}, s.isStrict = true →
      s.read w j = .ok a → j.at? path = some (.object fs) →
      ∃ className keys, s.recordAt? path = some (className, keys)
  | _, .text least, _, j, _, _, hread, hat => by
    obtain ⟨_, rfl⟩ | ⟨_, rfl⟩ := Json.isObject_or_isArray_of_at? hat <;> cases hread
  | _, .number, _, j, _, _, hread, hat => by
    obtain ⟨_, rfl⟩ | ⟨_, rfl⟩ := Json.isObject_or_isArray_of_at? hat <;> cases hread
  | _, .truth, _, j, _, _, hread, hat => by
    obtain ⟨_, rfl⟩ | ⟨_, rfl⟩ := Json.isObject_or_isArray_of_at? hat <;> cases hread
  | _, .choice _ _, _, j, _, _, hread, hat => by
    obtain ⟨_, rfl⟩ | ⟨_, rfl⟩ := Json.isObject_or_isArray_of_at? hat <;> cases hread
  | _, .table _, _, _, _, hstrict, _, _ => by cases hstrict
  | _, .optional s, path, j, a, hstrict, hread, hat => by
    have hj : j ≠ .null := by
      obtain ⟨_, rfl⟩ | ⟨_, rfl⟩ := Json.isObject_or_isArray_of_at? hat <;> exact Json.noConfusion
    rw [read_optional hj] at hread
    obtain ⟨b, hb, _⟩ := Checked.map_eq_ok_iff.mp hread
    obtain ⟨className, keys, hrecord⟩ := s.exists_recordAt? hstrict hb hat
    exact ⟨className, keys, hrecord⟩
  | _, .list s, path, j, a, hstrict, hread, hat => by
    obtain ⟨fields, rfl⟩ | ⟨items, rfl⟩ := Json.isObject_or_isArray_of_at? hat
    · cases hread
    · match path, hat with
      | .index n :: path, hat =>
        obtain ⟨j, hj, hrest⟩ := Option.bind_eq_some_iff.mp hat
        obtain ⟨is, js, rfl, rfl⟩ := Json.exists_split_of_getElem? hj
        obtain ⟨as, bs, hall⟩ := read_list_append w s is js
        rw [hall] at hread
        obtain ⟨x, hx⟩ := Checked.eq_ok_of_all hread
        exact s.exists_recordAt? hstrict (Checked.under_eq_ok_iff.mp hx) hrest
  | _, .record className fields make view make_view, path, j, a, hstrict, hread, hat => by
    obtain ⟨given, b, rfl, _, hfields, hkeys⟩ := exists_of_read_record hread
    match path, hat with
    | [], _ => exact ⟨className, fields.keys, rfl⟩
    | .key k :: path, hat =>
      obtain ⟨j, hj, hrest⟩ := Option.bind_eq_some_iff.mp hat
      obtain ⟨as, bs, hgiven, _⟩ := Json.field?_eq_some_iff.mp hj
      have hk : k ∈ fields.keys :=
        unknownKeys_eq_ok_iff.mp hkeys (k, j) (by simp [hgiven])
      exact fields.exists_recordAt? hstrict hk hj hfields hrest

theorem Fields.exists_recordAt? {w : RecordWording} {fs : List (Text × Json)} :
    ∀ {β : Type} (fields : Fields β) {k : Text} {path : List PathStep}
      {given : List (Text × Json)} {j : Json} {b : β}, fields.isStrict = true → k ∈ fields.keys →
      Json.field? given k = some j → fields.read w given = .ok b →
      j.at? path = some (.object fs) →
      ∃ className keys, fields.recordAt? k path = some (className, keys)
  | _, .done, _, _, _, _, _, _, hk, _, _, _ => by cases hk
  | _, .field name s default? rest, k, path, given, j, b, hstrict, hk, hj, hread, hat => by
    rw [read_field] at hread
    obtain ⟨hvalue, hrest⟩ := Checked.both_eq_ok_iff.mp hread
    obtain ⟨_, hs, hfields⟩ := Fields.isStrict_field_iff.mp hstrict
    unfold Fields.recordAt?
    split_ifs with hname
    · subst hname
      rw [readField_of_some hj] at hvalue
      exact s.exists_recordAt? hs (Checked.under_eq_ok_iff.mp hvalue) hat
    · have hother : k ∈ rest.keys := (List.mem_cons.mp hk).resolve_left (Ne.symm hname)
      exact rest.exists_recordAt? hfields hother hj hrest hat

end

/-! ## Requests and models -/

/-- In every object of a good value a key can be put that is no field, and it is refused. -/
def Schema.RefusesUnknownKeys {α : Type} (s : Schema α) : Prop :=
  ∀ (w : RecordWording) (j : Json) (a : α) (path : List PathStep) (fs : List (Text × Json)),
    s.read w j = .ok a → j.at? path = some (.object fs) →
      ∃ className keys, s.recordAt? path = some (className, keys) ∧
        ∀ key value, key ∉ keys → (∃ j', Json.Gains key value path j j') ∧
          ∀ j', Json.Gains key value path j j' → RefusedFor key value path (s.read w j')

theorem Schema.refusesUnknownKeys_of_isStrict {α : Type} {s : Schema α} (h : s.isStrict = true) :
    s.RefusesUnknownKeys := by
  intro w j a path fs hread hat
  obtain ⟨className, keys, hrecord⟩ := s.exists_recordAt? h hread hat
  refine ⟨className, keys, hrecord, fun key value hkey => ⟨Json.exists_gains key value hat, ?_⟩⟩
  intro j' hgains
  exact s.refusedFor_of_gains hkey h hrecord hread hgains

namespace Description

/-- **Requests and models are checked strictly at every depth.** -/
theorem refusesUnknownKeys :
    requestSchema.RefusesUnknownKeys ∧ modelSchema.RefusesUnknownKeys :=
  ⟨Schema.refusesUnknownKeys_of_isStrict rfl, Schema.refusesUnknownKeys_of_isStrict rfl⟩

example : requestSchema.recordAt?
      [.key "model", .key "constraints", .index 3, .key "function", .key "terms", .index 0] =
    some ("TermSpec", [("variable" : Text), "factor"]) := rfl

/-- A key that is a surrogate is no field of a model, but it is not reported as an unknown key. -/
theorem surrogateKey_notExtra :
    let key : Text := [.surrogate 0]
    let given : Json := .object [("name", .text "m")]
    let given' : Json := .object [("name", .text "m"), (key, .int 1)]
    (∃ a, modelSchema.read .byClass given = .ok a) ∧ Json.Gains key (.int 1) [] given given' ∧
      modelSchema.recordAt? [] =
        some ("ModelSpec", [("name" : Text), "variables", "objective", "constraints"]) ∧
      key ∉ [("name" : Text), "variables", "objective", "constraints"] ∧
      modelSchema.read .byClass given' = .error [⟨[], .notUnicode, given'⟩] ∧
      modelSchema.read .byClass given' ≠ .error [⟨[.key key], .extra, .int 1⟩] := by
  intro key given given'
  have hread : modelSchema.read .byClass given' = .error [⟨[], .notUnicode, given'⟩] := rfl
  refine ⟨⟨_, rfl⟩, .here [("name", .text "m")] [], rfl, by decide, hread, ?_⟩
  rw [hread]
  rintro ⟨⟩

end Description

end LinearProgram
