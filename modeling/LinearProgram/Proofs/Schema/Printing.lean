import Mathlib
import LinearProgram.Proofs.Json.Reading
import LinearProgram.Proofs.Schema.Rewriting
/-!
# What was read is printed and read again

A value that a schema has read is written with every field filled in, is printed, and both the text
and the value are read again, with the same result (`Schema.Settles`).  Only what a text can give
can be printed so that it is read again (`Json.Fits`); but whatever was read from a text fits, and
what a schema writes for it fits too, nested no deeper than the schema (`Schema.fits_write`).
-/
namespace LinearProgram

open Json (FitItems FitFields)

/-! ## Nesting -/

mutual

/-- How deep arrays and objects are nested in what a schema writes. -/
def Schema.depth : {α : Type} → Schema α → Nat
  | _, .text _ | _, .number | _, .truth | _, .choice _ _ => 0
  | _, .optional s => s.depth
  | _, .list s | _, .table s => s.depth + 1
  | _, .record _ fields _ _ _ => fields.depth + 1

/-- The same for the fields of a record. -/
def Fields.depth : {β : Type} → Fields β → Nat
  | _, .done => 0
  | _, .field _ s _ rest => max s.depth rest.depth

end

mutual

theorem Json.Fits.mono : ∀ {j : Json} {m n : Nat}, m ≤ n → j.Fits m → j.Fits n
  | .null, _, _, _, _ | .bool _, _, _, _, _ | .real _, _, _, _, _ => trivial
  | .int _, _, _, _, h => h
  | .text _, _, _, _, h => h
  | .array _, m, n, hle, ⟨hm, h⟩ => ⟨by omega, h.mono (by omega)⟩
  | .object _, m, n, hle, ⟨hm, hkeys, h⟩ => ⟨by omega, hkeys, h.mono (by omega)⟩

theorem Json.FitItems.mono : ∀ {js : List Json} {m n : Nat}, m ≤ n → FitItems m js → FitItems n js
  | [], _, _, _, _ => trivial
  | _ :: _, _, _, hle, ⟨hj, hjs⟩ => ⟨hj.mono hle, hjs.mono hle⟩

theorem Json.FitFields.mono : ∀ {fs : List (Text × Json)} {m n : Nat}, m ≤ n →
    FitFields m fs → FitFields n fs
  | [], _, _, _, _ => trivial
  | (_, _) :: _, _, _, hle, ⟨hk, hj, hfs⟩ => ⟨hk, hj.mono hle, hfs.mono hle⟩

end

/-! ## What is written fits -/

mutual

/-- What is written for a default fits. -/
def Schema.DefaultsFit : {α : Type} → Schema α → Prop
  | _, .text _ | _, .number | _, .truth | _, .choice _ _ => True
  | _, .optional s | _, .list s | _, .table s => s.DefaultsFit
  | _, .record _ fields _ _ _ => fields.DefaultsFit

/-- The same for the defaults of the fields of a record. -/
def Fields.DefaultsFit : {β : Type} → Fields β → Prop
  | _, .done => True
  | _, .field _ s default? rest =>
    s.DefaultsFit ∧ (∀ d ∈ default?, (s.write d).Fits s.depth) ∧ rest.DefaultsFit

end

theorem Fields.defaultsFit_field {α β : Type} {key : String} {s : Schema α} {d : α}
    {rest : Fields β} (hs : s.DefaultsFit) (hd : (s.write d).Fits s.depth)
    (hrest : rest.DefaultsFit) : (Fields.field key s (some d) rest).DefaultsFit :=
  ⟨hs, fun _ h => Option.some.inj h ▸ hd, hrest⟩

theorem Text.isJoined_ofString (s : String) : (ofString s).IsJoined := by
  refine (List.pairwise_of_forall_mem_list fun p _ q hq hpair => ?_).isChain
  obtain ⟨c, _, rfl⟩ := List.mem_map.mp hq
  exact CodePoint.isLow_char c hpair.2

theorem Fields.nodup_keys : ∀ {β : Type} (fields : Fields β), fields.Rewrites → fields.keys.Nodup
  | _, .done, _ => List.nodup_nil
  | _, .field _ _ _ rest, hrewrites =>
    List.nodup_cons.mpr ⟨hrewrites.1, rest.nodup_keys hrewrites.2.2.2⟩

mutual

/-- **What is written for a value that was read fits**, if what it was read from does. -/
theorem Schema.fits_write {w : RecordWording} : ∀ {α : Type} (s : Schema α) {j : Json} {a : α}
    {room : Nat}, s.Rewrites → s.DefaultsFit → j.Fits room → s.read w j = .ok a →
      (s.write a).Fits s.depth
  | _, .text _, j, t, _, _, _, hfits, hread => by
    obtain rfl := eq_of_read_text hread
    exact hfits
  | _, .number, _, _, _, _, _, _, _ => trivial
  | _, .truth, _, _, _, _, _, _, _ => trivial
  | _, .choice _ name, _, a, _, _, _, _, _ => Text.isJoined_ofString (name a)
  | _, .optional s, j, a?, room, hrewrites, hdefaults, hfits, hread => by
    cases a? with
    | none => exact trivial
    | some a =>
      have hj : j ≠ .null := by
        rintro rfl
        cases hread
      rw [read_optional hj] at hread
      obtain ⟨b, hb, hsome⟩ := Checked.map_eq_ok_iff.mp hread
      obtain rfl := Option.some.inj hsome
      exact s.fits_write hrewrites.2 hdefaults hfits hb
  | _, .list s, j, as, room, hrewrites, hdefaults, hfits, hread => by
    cases j with
    | array items =>
      have hitems := Json.fitItems_iff.mp hfits.2
      refine ⟨Nat.succ_ne_zero _, Json.fitItems_iff.mpr ?_⟩
      intro k hk
      obtain ⟨a, ha, rfl⟩ := List.mem_map.mp hk
      obtain ⟨j, hj, hread⟩ := exists_mem_of_forall₂ (read_array_eq_ok_iff.mp hread).flip ha
      exact s.fits_write hrewrites hdefaults (hitems j hj) hread
    | _ => cases hread
  | _, .table s, j, as, room, hrewrites, hdefaults, hfits, hread => by
    cases j with
    | object given =>
      obtain ⟨_, hkeys, hgiven⟩ := hfits
      have hread := read_table_eq_ok_iff.mp hread
      refine ⟨Nat.succ_ne_zero _, ?_, Json.fitFields_iff.mpr ?_⟩
      · rw [List.map_map]
        exact map_eq_map_of_forall₂ (hread.imp fun f a hfa => hfa.2.symm) ▸ hkeys
      · intro f hf
        obtain ⟨a, ha, rfl⟩ := List.mem_map.mp hf
        obtain ⟨g, hg, hga, hkey⟩ := exists_mem_of_forall₂ hread.flip ha
        obtain ⟨hjoined, hfits⟩ := Json.fitFields_iff.mp hgiven g hg
        exact ⟨hkey ▸ hjoined, s.fits_write hrewrites hdefaults hfits hga⟩
    | _ => cases hread
  | _, .record _ fields make view make_view, j, a, room, hrewrites, hdefaults, hfits, hread => by
    obtain ⟨hview, hfields⟩ := hrewrites
    obtain ⟨given, b, rfl, hb, rfl⟩ := exists_fields_of_read_record hread
    have hwrite := fields.fits_write hfields hdefaults hfits.2.2 hb
    show (Json.object (fields.write (view (make b)))).Fits (fields.depth + 1)
    rw [hview]
    refine ⟨Nat.succ_ne_zero _, ?_, hwrite⟩
    rw [fields.keys_write]
    exact fields.nodup_keys hfields

theorem Fields.fits_write {w : RecordWording} : ∀ {β : Type} (fields : Fields β)
    {given : List (Text × Json)} {b : β} {room : Nat}, fields.Rewrites → fields.DefaultsFit →
      FitFields room given → fields.read w given = .ok b → FitFields fields.depth (fields.write b)
  | _, .done, _, _, _, _, _, _, _ => trivial
  | _, .field key s default? rest, given, (a, b), room, hrewrites, hdefaults, hfits, hread => by
    obtain ⟨_, hs, _, hrest⟩ := hrewrites
    obtain ⟨hs', hdefault, hrest'⟩ := hdefaults
    rw [read_field] at hread
    obtain ⟨hvalue, hfields⟩ := Checked.both_eq_ok_iff.mp hread
    have ha : (s.write a).Fits s.depth := by
      rcases cases_of_readField hvalue with ⟨j, hj, hja⟩ | rfl
      · obtain ⟨gs, gs', rfl, _⟩ := Json.field?_eq_some_iff.mp hj
        have hfits := (Json.fitFields_iff.mp hfits _ (List.mem_append_right _ List.mem_cons_self)).2
        exact s.fits_write hs hs' hfits hja
      · exact hdefault a rfl
    have hrest' := rest.fits_write hrest hrest' hfits hfields
    exact ⟨Text.isJoined_ofString key, ha.mono (le_max_left _ _), hrest'.mono (le_max_right _ _)⟩

end

/-- **What was read is read again from the text that is printed for it.** -/
theorem Schema.read_print_write {α : Type} {s : Schema α} (hrewrites : s.Rewrites)
    (hdefaults : s.DefaultsFit) {depth room : Nat} (hdepth : s.depth ≤ depth) {w : RecordWording}
    {j : Json} {a : α} (hfits : j.Fits room) (hread : s.read w j = .ok a) :
    Json.read depth (Text.ofString (s.write a).print) = .ok (s.write a) :=
  Json.read_print ((s.fits_write hrewrites hdefaults hfits hread).mono hdepth)

/-! ## Models and requests -/

/-- Reading settles in one step: what was read is read again, and alike, from what is written for
it, where every object has exactly the fields of its class.  What is written, in its turn, is read
from the text that is printed for it, if what it stems from is what a text can give. -/
structure Schema.Settles {α : Type} (s : Schema α) (depth : Nat) : Prop where
  read_write : ∀ w w' j a, s.read w j = .ok a → s.read w' (s.write a) = .ok a
  complete : ∀ a path fs, (s.write a).at? path = some (.object fs) →
    ∃ className, s.recordAt? path = some (className, fs.map (·.1))
  read_print : ∀ w j a room, j.Fits room → s.read w j = .ok a →
    Json.read depth (Text.ofString (s.write a).print) = .ok (s.write a)

theorem Schema.Rewrites.settles {α : Type} {s : Schema α} (h : s.Rewrites)
    (hdefaults : s.DefaultsFit) (hstrict : s.isStrict = true) {depth : Nat}
    (hdepth : s.depth ≤ depth) : s.Settles depth where
  read_write _ _ _ _ hread := Schema.read_write_of_read h hread
  complete _ _ _ hat := s.recordAt?_of_at?_write hstrict hat
  read_print _ _ _ _ hfits hread := Schema.read_print_write h hdefaults hdepth hfits hread

namespace Description

theorem defaultsFit_functionSchema : functionSchema.DefaultsFit :=
  have hterm : termSchema.DefaultsFit :=
    ⟨trivial, nofun, Fields.defaultsFit_field trivial trivial trivial⟩
  Fields.defaultsFit_field hterm ⟨Nat.succ_ne_zero _, trivial⟩
    (Fields.defaultsFit_field trivial trivial trivial)

theorem defaultsFit_variableSchema : variableSchema.DefaultsFit :=
  ⟨trivial, nofun, Fields.defaultsFit_field trivial (Text.isJoined_ofString _)
    (Fields.defaultsFit_field trivial trivial (Fields.defaultsFit_field trivial trivial trivial))⟩

theorem defaultsFit_objectiveSchema : objectiveSchema.DefaultsFit :=
  ⟨defaultsFit_functionSchema, nofun,
    Fields.defaultsFit_field trivial (Text.isJoined_ofString _) trivial⟩

theorem defaultsFit_constraintSchema : constraintSchema.DefaultsFit :=
  ⟨defaultsFit_functionSchema, nofun,
    Fields.defaultsFit_field trivial (Text.isJoined_ofString _)
      (Fields.defaultsFit_field trivial trivial
        (Fields.defaultsFit_field trivial (Text.isJoined_ofString "") trivial))⟩

theorem defaultsFit_modelSchema : modelSchema.DefaultsFit :=
  ⟨trivial, nofun,
    Fields.defaultsFit_field defaultsFit_variableSchema ⟨Nat.succ_ne_zero _, trivial⟩
      (Fields.defaultsFit_field defaultsFit_objectiveSchema trivial
        (Fields.defaultsFit_field defaultsFit_constraintSchema ⟨Nat.succ_ne_zero _, trivial⟩
          trivial))⟩

theorem defaultsFit_requestSchema : requestSchema.DefaultsFit :=
  have hoptions : optionsSchema.DefaultsFit :=
    Fields.defaultsFit_field trivial (Text.isJoined_ofString _) trivial
  ⟨defaultsFit_modelSchema, nofun,
    Fields.defaultsFit_field hoptions ⟨Nat.succ_ne_zero _, List.nodup_singleton _,
      Text.isJoined_ofString _, Text.isJoined_ofString _, trivial⟩ trivial⟩

/-- **Reading descriptions settles in one step**, also by way of a text.  Whatever has a good name
can be read, and a request that is read again leads to the same model, or is inconsistent in the
same way. -/
theorem reading_settles : modelSchema.Settles deepest ∧ requestSchema.Settles deepest ∧
    (∀ w m, (∃ j, modelSchema.read w j = .ok m) ↔ m.name.isWellFormed = true ∧ m.name ≠ []) ∧
    (∀ w r, (∃ j, requestSchema.read w j = .ok r) ↔
      r.model.name.isWellFormed = true ∧ r.model.name ≠ []) ∧
    (∀ w w' j r, requestSchema.read w j = .ok r → ∃ r',
      requestSchema.read w' (requestSchema.write r) = .ok r' ∧
        r'.model.toModel = r.model.toModel) ∧
    ∀ w w' t j r, t.isWellFormed = true → Json.read deepest t = .ok j →
      requestSchema.read w j = .ok r → ∃ j' r',
        Json.read deepest (Text.ofString (requestSchema.write r).print) = .ok j' ∧
          requestSchema.read w' j' = .ok r' ∧ r'.model.toModel = r.model.toModel := by
  have hmodel : modelSchema.Settles deepest :=
    rewrites_modelSchema.settles defaultsFit_modelSchema rfl (by decide)
  have hrequest : requestSchema.Settles deepest :=
    rewrites_requestSchema.settles defaultsFit_requestSchema rfl (by decide)
  refine ⟨hmodel, hrequest, ?_, ?_, ?_, ?_⟩
  · intro w m
    exact (Schema.exists_read_iff rewrites_modelSchema).trans admits_modelSchema_iff
  · intro w r
    rw [Schema.exists_read_iff rewrites_requestSchema, admits_requestSchema_iff]
    exact admits_modelSchema_iff
  · intro w w' j r hread
    exact ⟨r, hrequest.read_write w w' j r hread, rfl⟩
  · intro w w' t j r ht hjson hread
    exact ⟨requestSchema.write r, r,
      hrequest.read_print w j r deepest (Json.fits_of_read hjson ht) hread,
      hrequest.read_write w w' j r hread, rfl⟩

end Description

end LinearProgram
