import Mathlib
import LinearProgram.Proofs.Cbc.Report
import LinearProgram.Proofs.Validation
/-!
# What is read from any text

A solution file is read line by line, and nothing is assumed of it: a line that states no
binding is skipped.  `Binds` says in terms of words when a line binds a position, and
`Selects` when the position is that of a variable of the model.  `LastBetween` is the last
such line, strictly between the first line of a text and its last one.

The main statement is `readSolution_readsByLines`.  The status is told by the first word, a
name has the value of the last line that selects it, lines that select nothing may come and go,
and for a model that the validator accepts there is one entry for each position bound.

## How the proof goes

A line is read as `Binds` says (`readBinding_eq_some_iff`), so the entries are the answers of
a traversal of the lines between, and the last answer under a name is that of the last line
that has one.  In a model without violations names are distinct, so that selecting a name
is binding one position.
-/
namespace LinearProgram.Cbc

open LinearProgram.Text (words lines integer? real?)

/-! ## Lines that bind -/

/-- The words of a line, after a mark or not, are an integer, `X` with an integer `position`,
the number `value`, and any others. -/
def Binds (line : List Char) (position : Int) (value : Float) : Prop :=
  ∃ (marked : Bool) (index : List Char) (n : Int) (digits number : List Char)
    (rest : List (List Char)),
    words line = (if marked then [['*', '*']] else []) ++
      index :: ('X' :: digits) :: number :: rest ∧
      integer? index = some n ∧ integer? digits = some position ∧ real? number = some value

/-- A line binds the position of a variable with this name. -/
def Selects (m : Model Float) (line : List Char) (name : Text) (value : Float) : Prop :=
  ∃ (p : Nat) (v : Variable Float), Binds line p value ∧ m.vars[p]? = some v ∧ v.name = name

theorem exists_mark (ws : List (List Char)) : ∃ marked : Bool,
    ws = (if marked then [['*', '*']] else []) ++ unmarked ws := by
  unfold unmarked
  split
  · exact ⟨true, rfl⟩
  · exact ⟨false, rfl⟩

/-- **Which lines state a binding.** -/
theorem readBinding_eq_some_iff {line : List Char} {z : Int} {x : Float} :
    readBinding line = some ⟨z, x⟩ ↔ Binds line z x := by
  constructor
  · intro h
    obtain ⟨marked, hwords⟩ := exists_mark (words line)
    unfold readBinding at h
    split at h
    · next index letter digits value rest hunmarked =>
      split_ifs at h with hletter
      obtain ⟨n, hn, h⟩ := Option.bind_eq_some_iff.mp h
      obtain ⟨p, hp, h⟩ := Option.bind_eq_some_iff.mp h
      obtain ⟨y, hy, h⟩ := Option.bind_eq_some_iff.mp h
      obtain ⟨rfl, rfl⟩ := Binding.mk.inj (Option.some.inj h)
      refine ⟨marked, index, n, digits, value, rest, ?_, hn, hp, hy⟩
      rw [hwords, hunmarked, hletter]
      rfl
    · cases h
  · rintro ⟨marked, index, n, digits, value, rest, hwords, hn, hz, hx⟩
    rw [readBinding, hwords, unmarked_mark marked hn]
    simp [hn, hz, hx, Mps.columnLetter]

/-- A line binds one position only. -/
theorem Binds.position_eq {line : List Char} {z w : Int} {x y : Float} (h : Binds line z x)
    (h' : Binds line w y) : z = w := by
  have heq := (readBinding_eq_some_iff.mpr h).symm.trans (readBinding_eq_some_iff.mpr h')
  exact (Binding.mk.inj (Option.some.inj heq)).1

/-- The name and the value that a line states about a model. -/
def answer? (m : Model Float) (line : List Char) : Option (Text × Float) :=
  (readBinding line).bind (·.resolve m.vars)

theorem answer?_eq_some_iff {m : Model Float} {line : List Char} {name : Text} {x : Float} :
    answer? m line = some (name, x) ↔ Selects m line name x := by
  simp only [answer?, Binding.resolve, atPosition?, Selects, Option.bind_eq_some_iff,
    Option.map_eq_some_iff, Prod.mk.injEq]
  constructor
  · rintro ⟨⟨z, y⟩, hread, v, hv, rfl, rfl⟩
    split_ifs at hv with hneg
    obtain ⟨p, rfl⟩ := Int.eq_ofNat_of_zero_le (Int.not_lt.mp hneg)
    exact ⟨p, v, readBinding_eq_some_iff.mp hread, hv, rfl⟩
  · rintro ⟨p, v, hbinds, hv, rfl⟩
    exact ⟨⟨p, x⟩, readBinding_eq_some_iff.mpr hbinds, v, by simpa using hv, rfl, rfl⟩

/-! ## Lines between the first and the last -/

/-- A line stands strictly between the first and the last one. -/
def Between (ls : List (List Char)) (line : List Char) : Prop :=
  ∃ first before after last, ls = first :: (before ++ line :: (after ++ [last]))

/-- `a` belongs to the last line strictly between the first and the last one to which
anything belongs. -/
def LastBetween {α : Type} (ls : List (List Char)) (r : List Char → α → Prop) (a : α) : Prop :=
  ∃ first before line after last, ls = first :: (before ++ line :: (after ++ [last])) ∧
    r line a ∧ ∀ k ∈ after, ∀ b, ¬ r k b

theorem bodyLines_append (first last : List Char) (body : List (List Char)) :
    bodyLines (first :: (body ++ [last])) = body := by
  simp [bodyLines]

theorem exists_ends {ls : List (List Char)} (h : bodyLines ls ≠ []) :
    ∃ first last, ls = first :: (bodyLines ls ++ [last]) := by
  cases ls with
  | nil => exact absurd rfl h
  | cons first ls =>
    have hne : ls ≠ [] := by
      rintro rfl
      exact h rfl
    exact ⟨first, ls.getLast hne, by simp [bodyLines, List.dropLast_append_getLast]⟩

theorem bodyLines_eq_iff {ls before after : List (List Char)} {line : List Char} :
    bodyLines ls = before ++ line :: after ↔
      ∃ first last, ls = first :: (before ++ line :: (after ++ [last])) := by
  constructor
  · intro h
    have hne : bodyLines ls ≠ [] := by simp [h]
    obtain ⟨first, last, hls⟩ := exists_ends hne
    exact ⟨first, last, by rw [hls, h]; simp⟩
  · rintro ⟨first, last, rfl⟩
    simpa using bodyLines_append first last (before ++ line :: after)

theorem mem_bodyLines_iff {ls : List (List Char)} {line : List Char} :
    line ∈ bodyLines ls ↔ Between ls line := by
  rw [List.mem_iff_append]
  constructor
  · rintro ⟨before, after, hbody⟩
    obtain ⟨first, last, hls⟩ := bodyLines_eq_iff.mp hbody
    exact ⟨first, before, after, last, hls⟩
  · rintro ⟨first, before, after, last, hls⟩
    exact ⟨before, after, bodyLines_eq_iff.mpr ⟨first, last, hls⟩⟩

section

variable {α : Type} {r : List Char → α → Prop} {f : List Char → Option α}

theorem lastBetween_iff (hf : ∀ line a, f line = some a ↔ r line a) {ls : List (List Char)}
    {a : α} : LastBetween ls r a ↔ ((bodyLines ls).filterMap f).getLast? = some a := by
  have hnone : ∀ line, f line = none ↔ ∀ b, ¬ r line b := by
    intro line
    simp only [Option.eq_none_iff_forall_ne_some, ne_eq, hf]
  simp only [getLast?_filterMap_eq_some_iff, hf, hnone]
  constructor
  · rintro ⟨first, before, line, after, last, hls, hlast⟩
    exact ⟨before, line, after, bodyLines_eq_iff.mpr ⟨first, last, hls⟩, hlast⟩
  · rintro ⟨before, line, after, hbody, hlast⟩
    obtain ⟨first, last, hls⟩ := bodyLines_eq_iff.mp hbody
    exact ⟨first, before, line, after, last, hls, hlast⟩

/-- There is a last line if there is any. -/
theorem exists_lastBetween_iff {ls : List (List Char)} :
    (∃ a, LastBetween ls r a) ↔ ∃ line, Between ls line ∧ ∃ a, r line a := by
  constructor
  · rintro ⟨a, first, before, line, after, last, hls, hline, _⟩
    exact ⟨line, ⟨first, before, after, last, hls⟩, a, hline⟩
  · rintro ⟨line, hline, hr⟩
    obtain ⟨before, k, after, hbody, ⟨a, hk⟩, hafter⟩ :=
      exists_last (p := fun k => ∃ a, r k a) ⟨line, mem_bodyLines_iff.mpr hline, hr⟩
    obtain ⟨first, last, hls⟩ := bodyLines_eq_iff.mp hbody
    exact ⟨a, first, before, k, after, last, hls, hk, fun c hc b hb => hafter c hc ⟨b, hb⟩⟩

end

/-! ## The solution -/

section

variable {text : List Char} {m : Model Float}

/-- The value that a line gives to a name. -/
def valueUnder? (m : Model Float) (name : Text) (line : List Char) : Option Float :=
  (answer? m line).bind fun e => if e.1 = name then some e.2 else none

theorem valueUnder?_eq_some_iff (name : Text) (line : List Char) (x : Float) :
    valueUnder? m name line = some x ↔ Selects m line name x := by
  simp only [valueUnder?, Option.bind_eq_some_iff, Option.ite_none_right_eq_some,
    Option.some.injEq]
  constructor
  · rintro ⟨⟨_, _⟩, hentry, rfl, rfl⟩
    exact answer?_eq_some_iff.mp hentry
  · intro h
    exact ⟨(name, x), answer?_eq_some_iff.mpr h, rfl, rfl⟩

theorem readSolution_eq (text : List Char) (m : Model Float) :
    readSolution text m = ⟨readStatus ((lines text).headD []),
      lastValues ((bodyLines (lines text)).filterMap (answer? m))⟩ := by
  rw [readSolution, bindingsOf, List.filterMap_filterMap]
  rfl

/-- **The entry of a name** is the value of the last line that selects it. -/
theorem mem_values_iff {name : Text} {x : Float} : (name, x) ∈ (readSolution text m).values ↔
    LastBetween (lines text) (Selects m · name) x := by
  rw [lastBetween_iff (valueUnder?_eq_some_iff name), readSolution_eq, mem_lastValues, lastValue?,
    valuesOf, List.filterMap_filterMap]
  rfl

theorem nodup_names (text : List Char) (m : Model Float) :
    ((readSolution text m).values.map (·.1)).Nodup := by
  rw [readSolution_eq]
  exact nodup_keys_lastValues _

/-- Lines that select nothing may as well be missing. -/
theorem readSolution_skip {first last : List Char} {before noise after : List (List Char)}
    (hlines : ∀ l ∈ first :: (before ++ noise ++ after ++ [last]), '\n' ∉ l)
    (hnoise : ∀ l ∈ noise, ∀ name x, ¬ Selects m l name x) :
    readSolution (['\n'].intercalate (first :: (before ++ noise ++ after ++ [last]))) m =
      readSolution (['\n'].intercalate (first :: (before ++ after ++ [last]))) m := by
  have hkept : ∀ l ∈ first :: (before ++ after ++ [last]), '\n' ∉ l := by
    simp only [List.mem_cons, List.mem_append] at hlines ⊢
    exact fun l hl => hlines l (by tauto)
  have hnone : noise.filterMap (answer? m) = [] := by
    rw [List.filterMap_eq_nil_iff]
    intro l hl
    rw [Option.eq_none_iff_forall_ne_some]
    exact fun e he => hnoise l hl e.1 e.2 (answer?_eq_some_iff.mp he)
  rw [readSolution_eq, readSolution_eq, Text.lines_intercalate (by simp) hlines,
    Text.lines_intercalate (by simp) hkept, bodyLines_append, bodyLines_append]
  simp [hnone]

end

/-! ## One entry for each position -/

/-- A line between the first and the last binds the position of a variable. -/
def Bound (m : Model Float) (ls : List (List Char)) (p : Nat) : Prop :=
  p < m.vars.length ∧ ∃ line, Between ls line ∧ ∃ x, Binds line p x

/-- An entry has the name of the variable at a position and the value bound to it last. -/
def EntryOf (m : Model Float) (ls : List (List Char)) (p : Nat) (e : Text × Float) : Prop :=
  ∃ v, m.vars[p]? = some v ∧ e.1 = v.name ∧ LastBetween ls (Binds · p) e.2

section

variable {m : Model Float}

/-- Under distinct names, a name is selected by binding its position. -/
theorem selects_iff_binds (hnames : (m.vars.map (·.name)).Nodup) {p : Nat} {v : Variable Float}
    (hp : m.vars[p]? = some v) {line : List Char} {x : Float} :
    Selects m line v.name x ↔ Binds line p x := by
  constructor
  · rintro ⟨q, w, hbinds, hq, hname⟩
    rwa [position_eq_of_name hnames hp hq hname.symm]
  · intro hbinds
    exact ⟨p, v, hbinds, hp, rfl⟩

/-- **One entry for each position bound**, and no other, if the names are distinct. -/
theorem exists_entryOf (hnames : (m.vars.map (·.name)).Nodup) (text : List Char) :
    ∃ ps : List Nat, ps.Nodup ∧ (∀ p, p ∈ ps ↔ Bound m (lines text) p) ∧
      List.Forall₂ (EntryOf m (lines text)) ps (readSolution text m).values := by
  have hlast : ∀ {p : Nat} {v : Variable Float}, m.vars[p]? = some v → ∀ x,
      (v.name, x) ∈ (readSolution text m).values ↔ LastBetween (lines text) (Binds · p) x := by
    intro p v hp x
    simp only [mem_values_iff, LastBetween, selects_iff_binds hnames hp]
  have hentry : ∀ e ∈ (readSolution text m).values, ∃ p, EntryOf m (lines text) p e := by
    rintro ⟨name, x⟩ he
    obtain ⟨_, _, line, _, _, _, ⟨p, v, _, hp, rfl⟩, _⟩ := mem_values_iff.mp he
    exact ⟨p, v, hp, rfl, (hlast hp x).mp he⟩
  obtain ⟨ps, hps⟩ := exists_forall₂ hentry
  have hinj : ∀ {e e' : Text × Float} {p p' : Nat}, EntryOf m (lines text) p e →
      EntryOf m (lines text) p' e' → p = p' → e.1 = e'.1 := by
    rintro e e' p _ ⟨v, hp, hv, _⟩ ⟨w, hp', hw, _⟩ rfl
    rw [hv, hw, Option.some.inj (hp.symm.trans hp')]
  refine ⟨ps, ?_, fun p => ⟨fun hmem => ?_, fun hbound => ?_⟩, hps.flip⟩
  · rw [← List.map_id ps]
    exact nodup_map_of_forall₂ hps hinj (nodup_names text m)
  · obtain ⟨e, _, v, hp, _, hlastBetween⟩ := exists_mem_of_forall₂ hps.flip hmem
    exact ⟨(List.getElem?_eq_some_iff.mp hp).1, exists_lastBetween_iff.mp ⟨e.2, hlastBetween⟩⟩
  · obtain ⟨hlt, hline⟩ := hbound
    obtain ⟨x, hx⟩ := exists_lastBetween_iff.mpr hline
    have hp : m.vars[p]? = some m.vars[p] := List.getElem?_eq_getElem hlt
    obtain ⟨q, hq, w, hw, hname, _⟩ := exists_mem_of_forall₂ hps ((hlast hp x).mpr hx)
    rwa [position_eq_of_name hnames hp hw hname]

end

/-! ## Any text -/

/-- The first word of the first line, if there is one. -/
def firstWord? (text : List Char) : Option (List Char) :=
  (words ((lines text).headD [])).head?

theorem readStatus_eq_of_head? {k l : List Char} (h : (words k).head? = (words l).head?) :
    readStatus k = readStatus l := by
  unfold readStatus
  cases hk : words k with
  | nil =>
    cases hl : words l with
    | nil => rfl
    | cons w ws => simp [hk, hl] at h
  | cons v vs =>
    cases hl : words l with
    | nil => simp [hk, hl] at h
    | cons w ws =>
      obtain rfl : v = w := by simpa [hk, hl] using h
      rfl

/-- Texts about a model are read line by line. -/
structure ReadsByLines (m : Model Float) : Prop where
  /-- The lines are the pieces between line feeds. -/
  pieces : ∀ text ls, lines text = ls ↔
    ls ≠ [] ∧ (∀ l ∈ ls, '\n' ∉ l) ∧ ['\n'].intercalate ls = text
  /-- Nothing but the first word tells the status. -/
  status : ∀ text text' m', firstWord? text = firstWord? text' →
    (readSolution text m).status = (readSolution text' m').status
  nodup : ∀ text, ((readSolution text m).values.map (·.1)).Nodup
  names : ∀ text name, name ∈ (readSolution text m).values.map (·.1) ↔
    ∃ line, Between (lines text) line ∧ ∃ x, Selects m line name x
  values : ∀ text name x, (name, x) ∈ (readSolution text m).values ↔
    LastBetween (lines text) (Selects m · name) x
  /-- Lines that select nothing may come and go between the first and the last. -/
  skip : ∀ (first last : List Char) (before noise after : List (List Char)),
    (∀ l ∈ first :: (before ++ noise ++ after ++ [last]), '\n' ∉ l) →
    (∀ l ∈ noise, ∀ name x, ¬ Selects m l name x) →
    readSolution (['\n'].intercalate (first :: (before ++ noise ++ after ++ [last]))) m =
      readSolution (['\n'].intercalate (first :: (before ++ after ++ [last]))) m
  /-- A position outside the model selects nothing. -/
  outside : ∀ line (z : Int) x, Binds line z x → z < 0 ∨ m.vars.length ≤ z →
    ∀ name y, ¬ Selects m line name y
  entries : m.violations = [] → ∀ text, ∃ ps : List Nat, ps.Nodup ∧
    (∀ p, p ∈ ps ↔ Bound m (lines text) p) ∧
    List.Forall₂ (EntryOf m (lines text)) ps (readSolution text m).values

/-- **What is read from any text**, about any model. -/
theorem readSolution_readsByLines (m : Model Float) : ReadsByLines m where
  pieces text ls := by
    constructor
    · rintro rfl
      obtain ⟨l, ls, hlines⟩ := Text.exists_lines_eq_cons text
      refine ⟨by simp [hlines], fun l hl => Text.newline_notMem_of_mem_lines hl, ?_⟩
      exact Text.intercalate_lines text
    · rintro ⟨hne, hlines, rfl⟩
      exact Text.lines_intercalate hne hlines
  status _ _ _ := readStatus_eq_of_head?
  nodup text := nodup_names text m
  names text name := by
    rw [← exists_lastBetween_iff]
    simp only [← mem_values_iff, List.mem_map, Prod.exists, exists_and_right, exists_eq_right]
  values text name x := mem_values_iff
  skip first last before noise after := readSolution_skip
  outside line z x hbinds hout name y hselects := by
    obtain ⟨p, v, hbinds', hp, rfl⟩ := hselects
    obtain rfl := hbinds.position_eq hbinds'
    have hlt := (List.getElem?_eq_some_iff.mp hp).1
    omega
  entries hvalid text := exists_entryOf (m.violations_eq_nil_iff.mp hvalid).names text

-- A position outside, a position bound again in another spelling, and a line about a row.
example : Mps.gapModel.violations = [] ∧ (readSolution
    "Optimal\n0 X0000000 1 0\n** 1 X+2 2\n2 X-1 4\n3 X0 3 0\n4 C0000000 5 0\n".toList
      Mps.gapModel).values = [(Text.ofString "x", 3.0), (Text.ofString "z", 2.0)] := by
  decide +kernel

end LinearProgram.Cbc
