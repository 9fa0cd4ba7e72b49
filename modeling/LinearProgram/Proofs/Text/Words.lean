import Mathlib
import LinearProgram.Text.Blank
/-!
# Words and lines of a written text

Texts are written piece by piece and read word by word.  The two sides meet in two
equations: `words_append` takes the first word off a line, when it is a word and a
blank or nothing follows, and `lines_append` takes the first line off a text.
`words_surrounded` says that blanks around a piece do not matter, which is how a
number with padding is read.
-/
namespace LinearProgram.Text

/-! ## Blanks -/

theorem isBlank_of_isWhiteSpace {c : Char} (h : isWhiteSpace c = true) : isBlank c = true := by
  rw [isBlank, h]
  rfl

/-- The code points of blanks. -/
def blankPoints : List Nat :=
  [0x09, 0x0A, 0x0B, 0x0C, 0x0D, 0x1C, 0x1D, 0x1E, 0x1F, 0x20, 0x85, 0xA0, 0x1680, 0x2000, 0x2001,
    0x2002, 0x2003, 0x2004, 0x2005, 0x2006, 0x2007, 0x2008, 0x2009, 0x200A, 0x2028, 0x2029, 0x202F,
    0x205F, 0x3000]

theorem toNat_mem_blankPoints {c : Char} (h : isBlank c = true) : c.toNat ∈ blankPoints := by
  simp only [isBlank, isWhiteSpace, Bool.or_eq_true, Bool.and_eq_true, decide_eq_true_eq] at h
  simp only [blankPoints, List.mem_cons, List.not_mem_nil, or_false]
  omega

/-- What no blank's code point is, no blank is. -/
theorem isBlank_eq_false {c : Char} (h : c.toNat ∉ blankPoints) : isBlank c = false :=
  Bool.eq_false_iff.mpr fun hc => h (toNat_mem_blankPoints hc)

/-- A word: at least one character, and no blank. -/
def IsWord (w : List Char) : Prop :=
  w ≠ [] ∧ ∀ c ∈ w, isBlank c = false

/-- A written-out word is checked letter by letter. -/
theorem isWord_of_all {w : List Char} (hne : w ≠ []) (h : w.all (fun c => !isBlank c) = true) :
    IsWord w :=
  ⟨hne, fun c hc => by simpa using List.all_eq_true.mp h c hc⟩

/-- What may follow a word: nothing, or a blank. -/
def EndsWord (cs : List Char) : Prop :=
  ∀ c ∈ cs.head?, isBlank c = true

theorem endsWord_nil : EndsWord [] := by simp [EndsWord]

theorem endsWord_cons {c : Char} (h : isBlank c = true) (cs : List Char) : EndsWord (c :: cs) := by
  simpa [EndsWord] using h

/-! ## Words -/

@[simp] theorem words_nil : words [] = [] := rfl

/-- A blank in front does not matter. -/
theorem words_cons_blank {c : Char} (h : isBlank c = true) (cs : List Char) :
    words (c :: cs) = words cs := by
  simp [words, wordsFrom, h, flush]

@[simp] theorem words_space (cs : List Char) : words (' ' :: cs) = words cs :=
  words_cons_blank (by decide) cs

/-- Letters are collected up to the end of the word. -/
theorem wordsFrom_append : ∀ {w : List Char} (read : List Char), (∀ c ∈ w, isBlank c = false) →
    ∀ {rest : List Char}, EndsWord rest → read ++ w ≠ [] →
      wordsFrom read (w ++ rest) = (read.reverse ++ w) :: words rest
  | [], read, _, [], _, hne => by
    have hread : read.isEmpty = false := by simpa using hne
    simp [wordsFrom, flush, hread]
  | [], read, _, c :: rest, hrest, hne => by
    have hread : read.isEmpty = false := by simpa using hne
    have hc : isBlank c = true := hrest c rfl
    simp [wordsFrom, flush, hread, hc, words]
  | c :: w, read, hw, rest, hrest, _ => by
    have hc : isBlank c = false := hw c (List.mem_cons_self ..)
    have hstep := wordsFrom_append (c :: read) (fun d hd => hw d (List.mem_cons_of_mem _ hd)) hrest
      (by simp)
    simpa [wordsFrom, hc] using hstep

/-- **The first word of a line** is taken off. -/
theorem words_append {w rest : List Char} (hw : IsWord w) (hrest : EndsWord rest) :
    words (w ++ rest) = w :: words rest := by
  simpa [words] using wordsFrom_append [] hw.2 hrest (by simpa using hw.1)

/-- Blanks in front do not matter. -/
theorem words_padded : ∀ {pad : List Char}, (∀ c ∈ pad, isBlank c = true) →
    ∀ cs : List Char, words (pad ++ cs) = words cs
  | [], _, _ => rfl
  | c :: pad, h, cs => by
    rw [List.cons_append, words_cons_blank (h c (List.mem_cons_self ..)),
      words_padded (fun d hd => h d (List.mem_cons_of_mem _ hd))]

theorem endsWord_append {pad rest : List Char} (hpad : ∀ c ∈ pad, isBlank c = true)
    (hrest : EndsWord rest) : EndsWord (pad ++ rest) := by
  cases pad with
  | nil => exact hrest
  | cons c pad => exact endsWord_cons (hpad c (List.mem_cons_self ..)) _

/-- A word that stands among blanks is taken off with them. -/
theorem words_surrounded {before w after rest : List Char}
    (hbefore : ∀ c ∈ before, isBlank c = true) (hw : IsWord w)
    (hafter : ∀ c ∈ after, isBlank c = true) (hrest : EndsWord rest) :
    words (before ++ w ++ after ++ rest) = w :: words rest := by
  rw [List.append_assoc, List.append_assoc, words_padded hbefore,
    words_append hw (endsWord_append hafter hrest), words_padded hafter]

theorem wordsFrom_concat_blank {b : Char} (hb : isBlank b = true) :
    ∀ (cs read : List Char), wordsFrom read (cs ++ [b]) = wordsFrom read cs
  | [], read => by simp [wordsFrom, hb, flush]
  | c :: cs, read => by
    have hrest := wordsFrom_concat_blank hb cs
    by_cases hc : isBlank c = true
    · simp [wordsFrom, hc, hrest]
    · simp [wordsFrom, hc, hrest]

/-- A blank at the end does not matter. -/
theorem words_concat_blank {b : Char} (hb : isBlank b = true) (cs : List Char) :
    words (cs ++ [b]) = words cs :=
  wordsFrom_concat_blank hb cs []

/-- No line feed stands in a word. -/
theorem IsWord.newline_notMem {w : List Char} (hw : IsWord w) : '\n' ∉ w := by
  intro h
  have hblank : isBlank '\n' = true := by decide
  rw [hw.2 _ h] at hblank
  cases hblank

/-! ## Trimming -/

section

variable {p : Char → Bool}

theorem trim_eq_rdropWhile (cs : List Char) : trim p cs = (cs.dropWhile p).rdropWhile p := rfl

/-- Only characters of the class are cut off, at the two ends. -/
theorem exists_eq_append_trim (cs : List Char) : ∃ before after,
    cs = before ++ trim p cs ++ after ∧ (∀ c ∈ before, p c = true) ∧ ∀ c ∈ after, p c = true := by
  refine ⟨cs.takeWhile p, (cs.dropWhile p).rtakeWhile p, ?_, ?_, ?_⟩
  · rw [trim_eq_rdropWhile, List.append_assoc, List.rdropWhile_append_rtakeWhile,
      List.takeWhile_append_dropWhile]
  · exact fun c hc => List.mem_takeWhile_imp hc
  · exact fun c hc => List.mem_rtakeWhile_imp hc

/-- A text without characters of the class is left alone. -/
theorem trim_eq_self {cs : List Char} (h : ∀ c ∈ cs, p c = false) : trim p cs = cs := by
  have hdrop : ∀ {ds : List Char}, (∀ c ∈ ds, p c = false) → ds.dropWhile p = ds := by
    intro ds hds
    cases ds with
    | nil => rfl
    | cons c ds => rw [List.dropWhile_cons_of_neg (by simp [hds c (List.mem_cons_self ..)])]
  rw [trim, hdrop h, hdrop fun c hc => h c (List.mem_reverse.mp hc), List.reverse_reverse]

/-- Trimming again cuts nothing off. -/
theorem trim_trim (cs : List Char) : trim p (trim p cs) = trim p cs := by
  have hfront : (trim p cs).dropWhile p = trim p cs := by
    rw [List.dropWhile_eq_self_iff]
    intro hpos
    have hprefix : trim p cs <+: cs.dropWhile p := List.rdropWhile_prefix _ _
    have hpos' : 0 < (cs.dropWhile p).length := Nat.lt_of_lt_of_le hpos hprefix.length_le
    have hhead : (trim p cs)[0] = (cs.dropWhile p)[0] := hprefix.getElem hpos
    rw [hhead]
    exact List.dropWhile_get_zero_not p cs hpos'
  rw [trim_eq_rdropWhile (trim p cs), hfront, trim_eq_rdropWhile, List.rdropWhile_idempotent]

end

/-! ## Lines -/

/-- **The first line of a text** is taken off. -/
theorem lines_append : ∀ {l : List Char}, '\n' ∉ l → ∀ rest : List Char,
    lines (l ++ '\n' :: rest) = l :: lines rest
  | [], _, rest => by simp [lines]
  | c :: l, h, rest => by
    have hc : c ≠ '\n' := fun e => h (by simp [e])
    have hl : '\n' ∉ l := fun hl => h (List.mem_cons_of_mem _ hl)
    simp [lines, hc, lines_append hl rest]

/-- Lines that all end in a line feed are read back, and the empty piece after the last. -/
theorem lines_flatMap : ∀ {ls : List (List Char)}, (∀ l ∈ ls, '\n' ∉ l) →
    lines (ls.flatMap (· ++ ['\n'])) = ls ++ [[]]
  | [], _ => rfl
  | l :: ls, h => by
    have hrest := lines_flatMap fun k hk => h k (List.mem_cons_of_mem _ hk)
    have hfirst := lines_append (h l (List.mem_cons_self ..)) (ls.flatMap (· ++ ['\n']))
    simpa [hrest] using hfirst

/-- There is always a first line. -/
theorem exists_lines_eq_cons (cs : List Char) : ∃ l ls, lines cs = l :: ls := by
  cases cs with
  | nil => exact ⟨[], [], rfl⟩
  | cons c cs =>
    by_cases hc : c = '\n'
    · exact ⟨[], lines cs, by simp [lines, hc]⟩
    · cases h : lines cs with
      | nil => exact ⟨[c], [], by simp [lines, hc, h]⟩
      | cons l ls => exact ⟨c :: l, ls, by simp [lines, hc, h]⟩

theorem newline_notMem_of_mem_lines {cs : List Char} : ∀ {l}, l ∈ lines cs → '\n' ∉ l := by
  induction cs with
  | nil => simp [lines]
  | cons c cs ih =>
    intro l hl
    obtain ⟨k, ks, hlines⟩ := exists_lines_eq_cons cs
    rw [hlines] at ih
    by_cases hc : c = '\n'
    · rw [lines, if_pos hc, hlines] at hl
      rcases List.mem_cons.mp hl with rfl | hl
      · exact List.not_mem_nil
      · exact ih hl
    · simp only [lines, if_neg hc, hlines] at hl
      rcases List.mem_cons.mp hl with rfl | hl
      · have hk : '\n' ∉ k := ih (List.mem_cons_self ..)
        simp [hk, Ne.symm hc]
      · exact ih (List.mem_cons_of_mem _ hl)

/-- Where two texts meet, the last line of the one and the first of the other become one. -/
theorem exists_lines_append (cs ds : List Char) : ∃ ks k l ls,
    lines cs = ks ++ [k] ∧ lines ds = l :: ls ∧ lines (cs ++ ds) = ks ++ (k ++ l) :: ls := by
  induction cs with
  | nil =>
    obtain ⟨l, ls, hlines⟩ := exists_lines_eq_cons ds
    exact ⟨[], [], l, ls, rfl, hlines, hlines⟩
  | cons c cs ih =>
    obtain ⟨ks, k, l, ls, hcs, hds, happend⟩ := ih
    by_cases hc : c = '\n'
    · refine ⟨[] :: ks, k, l, ls, ?_, hds, ?_⟩
      · simp [lines, hc, hcs]
      · simp [lines, hc, happend]
    · cases ks with
      | nil =>
        exact ⟨[], c :: k, l, ls, by simp [lines, hc, hcs], hds, by simp [lines, hc, happend]⟩
      | cons j js =>
        refine ⟨(c :: j) :: js, k, l, ls, ?_, hds, ?_⟩
        · simp [lines, hc, hcs]
        · simp [lines, hc, happend]

/-- The lines, joined by line feeds, are the text. -/
theorem intercalate_lines (cs : List Char) : ['\n'].intercalate (lines cs) = cs := by
  induction cs with
  | nil => rfl
  | cons c cs ih =>
    obtain ⟨l, ls, hlines⟩ := exists_lines_eq_cons cs
    rw [hlines] at ih
    by_cases hc : c = '\n'
    · rw [lines, if_pos hc, hlines, List.intercalate_cons_cons, ih, hc]
      rfl
    · simp only [lines, if_neg hc, hlines]
      cases ls with
      | nil => simpa using ih
      | cons k ks =>
        rw [List.intercalate_cons_cons] at ih ⊢
        rw [← ih]
        rfl

/-- Lines in front of others end in a line feed each. -/
theorem intercalate_append {ls ks : List (List Char)} (h : ks ≠ []) :
    ['\n'].intercalate (ls ++ ks) = ls.flatMap (· ++ ['\n']) ++ ['\n'].intercalate ks := by
  induction ls with
  | nil => rfl
  | cons l ls ih =>
    cases hrest : ls ++ ks with
    | nil => exact absurd (List.append_eq_nil_iff.mp hrest).2 h
    | cons j js =>
      rw [List.cons_append, hrest, List.intercalate_cons_cons, ← hrest, ih, List.flatMap_cons,
        List.append_assoc (l ++ ['\n'])]

/-- A text without a line feed is one line. -/
theorem lines_of_newline_notMem {l : List Char} (h : '\n' ∉ l) : lines l = [l] := by
  induction l with
  | nil => rfl
  | cons c l ih =>
    have hc : c ≠ '\n' := fun e => h (by simp [e])
    have hl : '\n' ∉ l := fun hl => h (List.mem_cons_of_mem _ hl)
    simp [lines, hc, ih hl]

/-- Lines that are joined by line feeds are read back. -/
theorem lines_intercalate {ls : List (List Char)} (hne : ls ≠ []) (h : ∀ l ∈ ls, '\n' ∉ l) :
    lines (['\n'].intercalate ls) = ls := by
  induction ls with
  | nil => exact absurd rfl hne
  | cons l ls ih =>
    have hl : '\n' ∉ l := h l (List.mem_cons_self ..)
    cases ls with
    | nil => simpa using lines_of_newline_notMem hl
    | cons k ks =>
      have hrest := ih (by simp) fun j hj => h j (List.mem_cons_of_mem _ hj)
      rw [List.intercalate_cons_cons, List.append_assoc, List.singleton_append,
        lines_append hl, hrest]

end LinearProgram.Text
