import Mathlib
import LinearProgram.Proofs.Cbc.Reading
/-!
# Solution files that are cut off

A solver that is stopped leaves a file that ends anywhere, in the middle of a number for one.  The
main statement, `readSolution_survivesCut`, is about a text in which each position is bound by one
line at most, and about what is left of it when it is cut off behind its first line.  The status is
the same, every entry is one of the whole text, and the entries are those of the lines that were
completed before the cut.

## How the proof goes

Where the text is cut, the line that is cut is the last one, which is never read; the lines before
it are lines of the whole text (`exists_bodyLines_append`).  If each position is bound once, it does
not matter which line is the last to bind it (`mem_values_iff_of_bindsOnce`), so lines that are
missing at the end take nothing but their own entries away.
-/
namespace LinearProgram.Cbc

open LinearProgram.Text (lines)

/-! ## Lines before the cut -/

/-- The line stands behind a line feed and ends in one. -/
def Completed (text line : List Char) : Prop :=
  '\n' ∉ line ∧ ∃ before after, text = before ++ '\n' :: (line ++ '\n' :: after)

theorem between_of_completed {text line : List Char} (h : Completed text line) :
    Between (lines text) line := by
  obtain ⟨hline, before, after, rfl⟩ := h
  have hrest : lines ('\n' :: (line ++ '\n' :: after)) = [] :: line :: lines after := by
    rw [← Text.lines_append hline after]
    exact Text.lines_append List.not_mem_nil (line ++ '\n' :: after)
  obtain ⟨ks, k, l, ls, _, hlines, happend⟩ :=
    Text.exists_lines_append before ('\n' :: (line ++ '\n' :: after))
  obtain ⟨rfl, rfl⟩ := List.cons.inj (hrest.symm.trans hlines)
  obtain ⟨a, as, hafter⟩ := Text.exists_lines_eq_cons after
  have hne : lines after ≠ [] := by simp [hafter]
  obtain ⟨bs, b, hlast⟩ := (lines after).eq_nil_or_concat'.resolve_left hne
  rw [happend, hlast, List.append_nil]
  -- What is before the line feed may be one line, or many of which it ends the last.
  cases ks with
  | nil => exact ⟨k, [], bs, b, rfl⟩
  | cons j js => exact ⟨j, js ++ [k], bs, b, by simp⟩

theorem completed_of_between {text line : List Char} (h : Between (lines text) line) :
    Completed text line := by
  obtain ⟨first, before, after, last, hlines⟩ := h
  have hline : line ∈ lines text := by simp [hlines]
  refine ⟨Text.newline_notMem_of_mem_lines hline, ?_⟩
  obtain ⟨ks, k, hfront⟩ :=
    (first :: before).eq_nil_or_concat'.resolve_left (List.cons_ne_nil first before)
  have hsplit : lines text = (ks ++ [k]) ++ ([line] ++ (after ++ [last])) := by
    rw [hlines, ← hfront]
    simp
  refine ⟨ks.flatMap (· ++ ['\n']) ++ k, ['\n'].intercalate (after ++ [last]), ?_⟩
  rw [← Text.intercalate_lines text, hsplit, Text.intercalate_append (by simp),
    Text.intercalate_append (by simp)]
  simp

/-- A text that goes on behind its first line has the lines that were between, and more. -/
theorem exists_bodyLines_append {cut : List Char} (hcut : '\n' ∈ cut) (rest : List Char) :
    (lines (cut ++ rest)).headD [] = (lines cut).headD [] ∧
      ∃ more, bodyLines (lines (cut ++ rest)) = bodyLines (lines cut) ++ more := by
  obtain ⟨ks, k, l, ls, hlines, _, happend⟩ := Text.exists_lines_append cut rest
  cases ks with
  | nil =>
    -- A single line has no line feed, but there is one before the cut.
    have hmem : k ∈ lines cut := by simp [hlines]
    have hk : '\n' ∉ k := Text.newline_notMem_of_mem_lines hmem
    have heq : cut = k := by simpa [hlines] using (Text.intercalate_lines cut).symm
    exact absurd (heq ▸ hcut) hk
  | cons j js =>
    rw [happend, hlines]
    refine ⟨rfl, ((k ++ l) :: ls).dropLast, ?_⟩
    simp [bodyLines]

/-! ## Positions bound once -/

/-- No two different lines bind the position of one variable. -/
def BindsOnce (m : Model Float) (ls : List (List Char)) : Prop :=
  ∀ p < m.vars.length, ∀ k l x y, Between ls k → Between ls l → Binds k p x → Binds l p y → k = l

/-- A line binds a position to one value only. -/
theorem Binds.value_eq {line : List Char} {z : Int} {x y : Float} (h : Binds line z x)
    (h' : Binds line z y) : x = y := by
  have heq := (readBinding_eq_some_iff.mpr h).symm.trans (readBinding_eq_some_iff.mpr h')
  exact (Binding.mk.inj (Option.some.inj heq)).2

variable {m : Model Float} {text : List Char}

/-- No position is bound by both lines. -/
def BindApart (k l : List Char) : Prop :=
  ∀ p x y, Binds k p x → ¬ Binds l p y

instance : Std.Symm BindApart :=
  ⟨fun _ _ h p x y hk hl => h p y x hl hk⟩

theorem bindsOnce_of_nodup (m : Model Float) {text : List Char}
    (h : ((bindingsOf text).map (·.position)).Nodup) : BindsOnce m (lines text) := by
  have hpositions := List.pairwise_filterMap.mp (List.pairwise_map.mp h)
  have hapart : (bodyLines (lines text)).Pairwise BindApart := by
    refine hpositions.imp fun hkl p x y hk hl => ?_
    exact hkl _ (readBinding_eq_some_iff.mpr hk) _ (readBinding_eq_some_iff.mpr hl) rfl
  intro p _ k l x y hk hl hkx hly
  rw [← mem_bodyLines_iff] at hk hl
  by_contra hne
  exact hapart.forall hk hl hne p x y hkx hly

/-- **Where each position is bound once**, the entries are those of all lines, the last or not. -/
theorem mem_values_iff_of_bindsOnce (hnames : (m.vars.map (·.name)).Nodup)
    (honce : BindsOnce m (lines text)) {name : Text} {x : Float} :
    (name, x) ∈ (readSolution text m).values ↔
      ∃ line, Between (lines text) line ∧ Selects m line name x := by
  rw [mem_values_iff]
  constructor
  · rintro ⟨first, before, line, after, last, hlines, hline, _⟩
    exact ⟨line, ⟨first, before, after, last, hlines⟩, hline⟩
  · rintro ⟨line, hline, hselects⟩
    obtain ⟨y, hlast⟩ : ∃ y, LastBetween (lines text) (Selects m · name) y :=
      exists_lastBetween_iff.mpr ⟨line, hline, x, hselects⟩
    -- The last line that binds the position can be no other than this one.
    obtain ⟨p, v, hbinds, hp, rfl⟩ := hselects
    have hlt : p < m.vars.length := (List.getElem?_eq_some_iff.mp hp).1
    obtain ⟨first, before, k, after, last, hlines, hk, _⟩ := id hlast
    have hkbinds : Binds k p y := (selects_iff_binds hnames hp).mp hk
    obtain rfl : k = line :=
      honce p hlt k line y x ⟨first, before, after, last, hlines⟩ hline hkbinds hbinds
    obtain rfl := hkbinds.value_eq hbinds
    exact hlast

/-! ## Cut off -/

/-- What is read from the text that is left is right, and all that can be. -/
structure SurvivesCut (m : Model Float) (text cut : List Char) : Prop where
  status : (readSolution cut m).status = (readSolution text m).status
  entries : ∀ e ∈ (readSolution cut m).values, e ∈ (readSolution text m).values
  /-- A line counts if it was completed before the cut. -/
  completed : ∀ name x, (name, x) ∈ (readSolution cut m).values ↔
    ∃ line, Completed cut line ∧ Selects m line name x

/-- **A text that is cut off never gives a wrong value.** -/
theorem readSolution_survivesCut (hnames : (m.vars.map (·.name)).Nodup)
    (honce : BindsOnce m (lines text)) {cut : List Char} (hstart : cut <+: text)
    (hcut : '\n' ∈ cut) : SurvivesCut m text cut := by
  obtain ⟨rest, rfl⟩ := hstart
  obtain ⟨hhead, more, hbody⟩ := exists_bodyLines_append hcut rest
  have hbetween : ∀ line, Between (lines cut) line → Between (lines (cut ++ rest)) line := by
    intro line hline
    rw [← mem_bodyLines_iff] at hline ⊢
    rw [hbody]
    exact List.mem_append_left _ hline
  have honceCut : BindsOnce m (lines cut) := fun p hp k l x y hk hl =>
    honce p hp k l x y (hbetween k hk) (hbetween l hl)
  refine ⟨?_, ?_, fun name x => ?_⟩
  · rw [readSolution_eq, readSolution_eq, hhead]
  · rintro ⟨name, x⟩ he
    obtain ⟨line, hline, hselects⟩ := (mem_values_iff_of_bindsOnce hnames honceCut).mp he
    exact (mem_values_iff_of_bindsOnce hnames honce).mpr ⟨line, hbetween line hline, hselects⟩
  · rw [mem_values_iff_of_bindsOnce hnames honceCut]
    refine exists_congr fun line => and_congr_left fun _ => ?_
    exact ⟨completed_of_between, between_of_completed⟩

/-- A report on the variables of `gapModel`. -/
def wholeText : List Char :=
  "Optimal - objective value 11.5\n 2 X0000002 1 0.25\n** 0 X0000000 3.75 0\n 1 X0000001 -2 0\n".toList

/-- What is left of it when it is cut off in the middle of its second value. -/
def cutText : List Char :=
  "Optimal - objective value 11.5\n 2 X0000002 1 0.25\n** 0 X0000000 3.7".toList

theorem readSolution_survivesCut_cutText :
    (Mps.gapModel.vars.map (·.name)).Nodup ∧ BindsOnce Mps.gapModel (lines wholeText) ∧
      cutText <+: wholeText ∧ '\n' ∈ cutText ∧ SurvivesCut Mps.gapModel wholeText cutText := by
  have hnames : (Mps.gapModel.vars.map (·.name)).Nodup := by decide +kernel
  have honce : BindsOnce Mps.gapModel (lines wholeText) :=
    bindsOnce_of_nodup _ (by decide +kernel)
  have hstart : cutText <+: wholeText := by decide +kernel
  have hcut : '\n' ∈ cutText := by decide +kernel
  exact ⟨hnames, honce, hstart, hcut, readSolution_survivesCut hnames honce hstart hcut⟩

end LinearProgram.Cbc
