import Mathlib
import LinearProgram.Mps.File
import LinearProgram.Proofs.Lists
import LinearProgram.Proofs.Mps.Batch
/-!
# What is in a file that was written

A batch hands on or keeps what it is given, in order.  Along the lines of a model, what a file has
taken and what waits in the batch is therefore always what was listed so far, and a file that
took all batches holds the whole text of the model (`text?_of_writeModel`).  A file that never
fails takes exactly the groups that the batch hands on (`writeModel_sound`).
-/
namespace LinearProgram.Mps

/-! ## Files -/

namespace Medium

variable {medium : Medium}

/-- A file that takes groups of lines holds them after what it held. -/
theorem join_of_write {gs : List (List String)} {written texts : List String}
    (h : medium.write written gs = .ok texts) :
    String.join texts = String.join written ++ String.join gs.flatten := by
  induction gs generalizing written with
  | nil =>
    obtain rfl := Except.ok.inj h
    simp
  | cons g gs ih =>
    unfold write at h
    split at h
    · cases h
    · rw [ih h]
      simp [String.append_assoc]

/-- What is in a file once all lines were written: what it held, what waited, and the lines. -/
theorem join_of_writeLines {ls : List (Option String)} {written texts : List String}
    {b : Batch String} (h : medium.writeLines written b ls = .complete texts) :
    ∃ all, ls.mapM id = some all ∧
      String.join texts = String.join written ++ String.join (b.lines ++ all) := by
  induction ls generalizing written b with
  | nil =>
    unfold writeLines at h
    split at h
    next ts hts =>
      obtain rfl := Writing.complete.inj h
      refine ⟨[], rfl, ?_⟩
      rw [join_of_write hts, Batch.flatten_flush, List.append_nil]
    next => cases h
  | cons l? ls ih =>
    cases l? with
    | none => cases h
    | some l =>
      unfold writeLines at h
      split at h
      next ts hts =>
        obtain ⟨all, hall, hjoin⟩ := ih h
        refine ⟨l :: all, by simp [hall], ?_⟩
        calc String.join texts
            = String.join written ++ String.join (b.append l).1.flatten ++
                String.join ((b.append l).2.lines ++ all) := by rw [hjoin, join_of_write hts]
          _ = String.join written ++
                String.join ((b.append l).1.flatten ++ (b.append l).2.lines ++ all) := by
              simp only [String.join_append, String.append_assoc]
          _ = String.join written ++ String.join (b.lines ++ l :: all) := by
              rw [b.flatten_append l, List.append_assoc, List.singleton_append]
      next => cases h

/-- Lines that can all be written do not end the writing. -/
theorem writeLines_ne_overflow {ls : List (Option String)} {written : List String}
    {b : Batch String} (h : ∀ l? ∈ ls, l?.isSome) :
    medium.writeLines written b ls ≠ .overflow := by
  induction ls generalizing written b with
  | nil =>
    unfold writeLines
    split <;> simp
  | cons l? ls ih =>
    obtain ⟨hl, hls⟩ := List.forall_mem_cons.mp h
    obtain ⟨l, rfl⟩ := Option.isSome_iff_exists.mp hl
    unfold writeLines
    split
    · exact ih hls
    · simp

theorem write_sound (written : List String) (gs : List (List String)) :
    Medium.sound.write written gs = .ok (written ++ gs.map String.join) := by
  induction gs generalizing written with
  | nil => simp [write]
  | cons g gs ih => simp [write, faultAt?, ih]

/-- What a sound file takes are the groups that the batch hands on. -/
theorem writeLines_sound (written : List String) (b : Batch String) (ls : List String) :
    Medium.sound.writeLines written b (ls.map some) = .complete
      (written ++ (b.handed (ls.map .append ++ [.flush])).map String.join) := by
  induction ls generalizing written b with
  | nil => simp [writeLines, write_sound, Batch.handed, Batch.run, Batch.act]
  | cons l ls ih =>
    rw [List.map_cons, writeLines, write_sound]
    dsimp only
    rw [ih, List.map_cons, List.cons_append, Batch.handed_cons, List.map_append, List.append_assoc]
    rfl

end Medium

variable {medium : Medium} {m : Model Float}

theorem mapM_map_text (ls : List (Option Line)) :
    (ls.map (·.map Line.text)).mapM id = (ls.mapM id).map (·.map Line.text) := by
  induction ls with
  | nil => rfl
  | cons l? ls ih =>
    cases l? with
    | none => simp
    | some l => cases h : ls.mapM id <;> simp_all

/-- **A file that was written completely holds the text of the model.** -/
theorem text?_of_writeModel {texts : List String} (h : writeModel medium m = .complete texts) :
    text? m = some (String.join texts) := by
  have hlines : medium.writeLines [] (Batch.empty batchCapacity)
      ((fileLines m).map (·.map Line.text)) = .complete texts := by
    unfold writeModel at h
    split at h
    · cases h
    · cases h
    · exact h
  obtain ⟨all, hall, hjoin⟩ := Medium.join_of_writeLines hlines
  rw [mapM_map_text] at hall
  obtain ⟨ls, hls, rfl⟩ := Option.map_eq_some_iff.mp hall
  have hlist : lines? m = some ls := hls
  rw [text?, hlist, hjoin]
  simp [Batch.empty]

/-- If every number can be written, the file may fail but no number does. -/
theorem writeModel_ne_overflow {text : String} (h : text? m = some text) :
    writeModel medium m ≠ .overflow := by
  obtain ⟨ls, hls, _⟩ := Option.map_eq_some_iff.mp h
  have hsome : ∀ l? ∈ (fileLines m).map (·.map Line.text), l?.isSome := by
    intro l? hl?
    obtain ⟨line?, hline?, rfl⟩ := List.mem_map.mp hl?
    rw [mapM_id_eq_some_iff.mp hls] at hline?
    obtain ⟨l, _, rfl⟩ := List.mem_map.mp hline?
    rfl
  unfold writeModel
  split
  · simp
  · simp
  · exact Medium.writeLines_ne_overflow hsome

/-- A sound file takes every model whose numbers can be written, batch by batch. -/
theorem writeModel_sound {ls : List Line} (h : lines? m = some ls) :
    writeModel .sound m = .complete (((Batch.empty batchCapacity).handed
      (ls.map (fun l => .append l.text) ++ [.flush])).map String.join) := by
  have hlines : fileLines m = ls.map some := mapM_id_eq_some_iff.mp h
  unfold writeModel
  dsimp only
  rw [hlines, List.map_map]
  have hsome : ls.map ((·.map Line.text) ∘ some) = (ls.map Line.text).map some := by simp
  rw [hsome, Medium.writeLines_sound, List.nil_append, List.map_map]
  rfl

theorem exists_writeModel_sound {text : String} (h : text? m = some text) :
    ∃ texts, writeModel .sound m = .complete texts := by
  obtain ⟨ls, hls, _⟩ := Option.map_eq_some_iff.mp h
  exact ⟨_, writeModel_sound hls⟩

/-- What is written of a model. -/
structure WritesWhole (m : Model Float) : Prop where
  /-- A file that was written completely holds the text of the model. -/
  text : ∀ medium texts, writeModel medium m = .complete texts → text? m = some (String.join texts)
  /-- A file that never fails is written completely, group by group, and holds all lines. -/
  sound : ∀ ls, lines? m = some ls → ∃ texts, writeModel .sound m = .complete texts ∧
    texts = ((Batch.empty batchCapacity).handed
      (ls.map (fun l => .append l.text) ++ [.flush])).map String.join ∧
    String.join texts = String.join (ls.map Line.text)

theorem writesWhole (m : Model Float) : WritesWhole m where
  text _ _ := text?_of_writeModel
  sound ls h := by
    have hwrite := writeModel_sound h
    have htext : text? m = some (String.join (ls.map Line.text)) := by rw [text?, h]; rfl
    exact ⟨_, hwrite, rfl, Option.some.inj ((text?_of_writeModel hwrite).symm.trans htext)⟩

/-- **Batches neither lose, repeat nor reorder text**, whatever their capacity and the actions on
them are, so a file holds all lines of its model. -/
theorem Batch.keeps_and_writesWhole (capacity : Int) (as : List (Batch.Action String))
    (m : Model Float) : Batch.Keeps capacity as ∧ WritesWhole m :=
  ⟨Batch.keeps capacity as, writesWhole m⟩

end LinearProgram.Mps
