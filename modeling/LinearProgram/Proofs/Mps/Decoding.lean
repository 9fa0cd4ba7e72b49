import Mathlib
import LinearProgram.Proofs.Mps.Deck
import LinearProgram.Proofs.Mps.Entry
/-!
# The model file is read back

`Deck.ofModel` says term by term what the file of a model has to say.  The main statement is
`ofText?_text`: when every factor of a model is a double or can be made one, its file is
written, and reading it gives this deck, which is well-formed.

## How the proof goes

`Shows` relates a line of the file, as the writer lists it, to a card.  Section by section
the lines show the cards of the deck (`shows_fileLines`); each line ends in its only line
feed and its words are its card, so splitting the text gives the cards back
(`ofText?_join`), and `read_cards` reads them.
-/
namespace LinearProgram.Mps

/-! ## The deck of a model -/

/-- The text of a number that can be written. -/
def numberText (k : Number Float) : List Char :=
  (numberText? k).getD []

/-- The column of a variable. -/
def DeckColumn.of (i : Nat) (v : Variable Float) (es : List (Row × Number Float)) : DeckColumn where
  name := columnWord i
  integral := v.domain ≠ .real
  entries := es.map fun e => (Row.word e.1, numberText e.2)

/-- What the file of a model has to say.  Without an objective the direction is to minimise. -/
def Deck.ofModel (m : Model Float) : Deck where
  optimization := m.objective?.elim .minimize (·.optimization)
  hasObjective := m.objective?.isSome
  rows := m.constraints.zipIdx.map fun p => (p.1.constraint.comparison, rowWord p.2)
  columns := (m.vars.zipIdx.filter fun p => m.hasEntry p.1).map fun p =>
    DeckColumn.of p.2 p.1 (m.entriesFor p.1)
  rightHandSides := m.constraints.zipIdx.map fun p =>
    (rowWord p.2, numberText (.real (p.1.constraint.constant - p.1.constraint.function.constant)))
  binaries := (m.vars.zipIdx.filter fun p =>
    m.hasEntry p.1 && (p.1.domain ≠ .real && (p.1.minimum?.any (·.equals (.int 0)) &&
      p.1.maximum?.any (·.equals (.int 1))))).map fun p => columnWord p.2

theorem numberText?_eq_some {k : Number Float} {x : Float} (h : k.real? = some x) :
    numberText? k = some (numberText k) := by
  unfold numberText numberText?
  split
  · rfl
  · rw [h]
    rfl

theorem isWord_numberText {k : Number Float} {x : Float} (h : k.real? = some x) :
    Text.IsWord (numberText k) :=
  isWord_of_numberText? (numberText?_eq_some h)

/-! ## The deck of a model is well-formed -/

section

variable (m : Model Float)

theorem rowNames_ofModel : (Deck.ofModel m).rowNames
    = (if m.objective?.isSome then [objectiveName] else []) ++
        (List.range m.constraints.length).map rowWord := by
  have hrange : (List.range m.constraints.length) = m.constraints.zipIdx.map (·.2) := by
    rw [List.zipIdx_map_snd, List.range_eq_range']
  rw [Deck.rowNames, hrange, List.map_map]
  simp [Deck.ofModel, List.map_map, Function.comp_def]

/-- The name of the row of an entry is declared. -/
theorem word_mem_rowNames {row : Row} {f : LinearFunction Float}
    (h : m.function? row = some f) : Row.word row ∈ (Deck.ofModel m).rowNames := by
  rw [rowNames_ofModel, List.mem_append]
  cases row with
  | constraint k =>
    obtain ⟨c, hk, _⟩ := Option.map_eq_some_iff.mp h
    have hlt : k < m.constraints.length := (List.getElem?_eq_some_iff.mp hk).1
    exact .inr (List.mem_map.mpr ⟨k, List.mem_range.mpr hlt, rfl⟩)
  | objective =>
    obtain ⟨o, ho, _⟩ := Option.map_eq_some_iff.mp h
    exact .inl (by simp [ho, Row.word])

theorem nodup_rowNames_ofModel : (Deck.ofModel m).rowNames.Nodup := by
  rw [rowNames_ofModel]
  have hrows : ((List.range m.constraints.length).map rowWord).Nodup :=
    List.nodup_range.map fun j k h => rowWord_injective h
  split
  · rw [List.singleton_append, List.nodup_cons]
    refine ⟨fun hmem => ?_, hrows⟩
    obtain ⟨k, _, hk⟩ := List.mem_map.mp hmem
    exact rowWord_ne_objectiveName k hk
  · exact hrows

theorem nodup_columns_ofModel : ((Deck.ofModel m).columns.map (·.name)).Nodup := by
  have hnames : (Deck.ofModel m).columns.map (·.name)
      = ((m.vars.zipIdx.filter fun p => m.hasEntry p.1).map (·.2)).map columnWord := by
    simp [Deck.ofModel, DeckColumn.of, List.map_map, Function.comp_def]
  have hpositions : (m.vars.zipIdx.map (·.2)).Nodup := by
    rw [List.zipIdx_map_snd]
    exact List.nodup_range'
  rw [hnames]
  exact (hpositions.sublist (List.filter_sublist.map _)).map fun i j h => columnWord_injective h

/-- **Rows and columns of a model have names of their own, and whatever is named is
declared.** -/
theorem wellFormed_ofModel : (Deck.ofModel m).WellFormed where
  rows_named := by
    intro r hr
    obtain ⟨p, _, rfl⟩ := List.mem_map.mp hr
    exact ⟨p.2, rfl⟩
  rows_nodup := nodup_rowNames_ofModel m
  columns_named := by
    intro c hc
    obtain ⟨p, _, rfl⟩ := List.mem_map.mp hc
    exact ⟨p.2, rfl⟩
  columns_nodup := nodup_columns_ofModel m
  names_apart := by
    intro r hr hmem
    obtain ⟨c, hc, rfl⟩ := List.mem_map.mp hmem
    obtain ⟨p, _, rfl⟩ := List.mem_map.mp hc
    rw [rowNames_ofModel] at hr
    -- A row is named after the objective or with another letter than a column.
    have hcases : columnWord p.2 = objectiveName ∨ ∃ k : Nat, rowWord k = columnWord p.2 := by
      rcases List.mem_cons.mp hr with hr | hr
      · exact .inl hr
      · rcases List.mem_append.mp hr with hr | hr
        · split at hr
          · exact .inl (List.mem_singleton.mp hr)
          · cases hr
        · obtain ⟨k, _, hk⟩ := List.mem_map.mp hr
          exact .inr ⟨k, hk⟩
    rcases hcases with h | ⟨k, hk⟩
    · exact absurd (List.cons.inj h).1 (by decide)
    · exact rowWord_ne_columnWord k p.2 hk
  entries_ne_nil := by
    intro c hc
    obtain ⟨p, hp, rfl⟩ := List.mem_map.mp hc
    have hentry : m.hasEntry p.1 = true := (List.mem_filter.mp hp).2
    have hne : (m.entriesFor p.1).isEmpty = false := by simp [m.entriesFor_isEmpty, hentry]
    simpa [DeckColumn.of] using hne
  entries_declared := by
    intro c hc e he
    obtain ⟨p, _, rfl⟩ := List.mem_map.mp hc
    obtain ⟨entry, hentry, rfl⟩ := List.mem_map.mp he
    obtain ⟨f, hf, _⟩ := Model.mem_entriesFor.mp hentry
    exact word_mem_rowNames m hf
  rightHandSides_rows := by simp [Deck.ofModel, List.map_map, Function.comp_def]
  binaries_declared := by
    have hintegral : (Deck.ofModel m).columns.filter (·.integral)
        = (m.vars.zipIdx.filter fun p => m.hasEntry p.1 && p.1.domain ≠ .real).map fun p =>
            DeckColumn.of p.2 p.1 (m.entriesFor p.1) := by
      simp [Deck.ofModel, List.filter_map, List.filter_filter, DeckColumn.of, Function.comp_def,
        Bool.and_comm]
    rw [hintegral, List.map_map]
    refine List.Sublist.map _ (List.monotone_filter_right _ fun p hp => ?_)
    simp only [Bool.and_eq_true] at hp ⊢
    exact ⟨hp.1, hp.2.1⟩

end

/-! ## The lines show the cards -/

/-- A line of the file has been written, and its words are the card. -/
def Shows (line? : Option Line) (c : Card) : Prop :=
  ∃ l, line? = some l ∧ l.IsWritten ∧ l.words = c

theorem shows_of_number?_eq_none {l : Line} (h : l.number? = none) : Shows (some l) l.words :=
  ⟨l, rfl, by simp [Line.IsWritten, h], rfl⟩

theorem shows_of_number? {k : Number Float} {x : Float} (hk : k.real? = some x)
    {line : List Char → Line} (h : ∀ t, (line t).number? = some t) :
    Shows ((numberText? k).map line) (line (numberText k)).words := by
  refine ⟨line (numberText k), by rw [numberText?_eq_some hk]; rfl, ?_, rfl⟩
  intro t ht
  rw [h] at ht
  obtain rfl := Option.some.inj ht
  exact isWord_numberText hk

variable {m : Model Float}

/-- The section ROWS. -/
theorem shows_rowLines (m : Model Float) :
    List.Forall₂ Shows ((rowLines m).map some) (headingCard "ROWS" ::
      ((if m.objective?.isSome then [objectiveCard] else []) ++
        (Deck.ofModel m).rows.map rowCard)) := by
  refine .cons (shows_of_number?_eq_none rfl) ?_
  refine (congrArg (List.Forall₂ Shows · _) List.map_append).mpr (List.rel_append ?_ ?_)
  · cases m.objective? with
    | none => exact .nil
    | some o => exact .cons (shows_of_number?_eq_none rfl) .nil
  · simp only [Deck.ofModel, List.map_map, List.forall₂_map_left_iff, List.forall₂_map_right_iff,
      List.forall₂_same]
    exact fun p _ => shows_of_number?_eq_none rfl

/-- The lines of one column. -/
theorem shows_columnBlock {es : List (Row × Number Float)} (i : Nat) (v : Variable Float)
    (hes : ∀ e ∈ es, ∃ x, e.2.real? = some x) (hne : es.isEmpty = false) :
    List.Forall₂ Shows (columnBlock i v es) ((DeckColumn.of i v es).items.map ColumnItem.card) := by
  have hentries : List.Forall₂ Shows (es.map fun e => (numberText? e.2).map (.entry i e.1))
      (((DeckColumn.of i v es).entries.map (.entry (columnWord i))).map ColumnItem.card) := by
    simp only [DeckColumn.of, List.map_map, List.forall₂_map_left_iff, List.forall₂_map_right_iff,
      List.forall₂_same]
    intro e he
    obtain ⟨x, hx⟩ := hes e he
    exact shows_of_number? hx fun t => rfl
  rw [columnBlock, hne, DeckColumn.items]
  by_cases hintegral : v.domain = .real
  · simpa [Variable.isIntegral, DeckColumn.of, hintegral] using hentries
  · have hopening : Shows (some (.marker true)) (ColumnItem.marker true).card :=
      shows_of_number?_eq_none rfl
    have hclosing : Shows (some (.marker false)) (ColumnItem.marker false).card :=
      shows_of_number?_eq_none rfl
    have hmarkers := List.rel_append
      (.cons hopening hentries) (.cons hclosing .nil)
    simpa [Variable.isIntegral, DeckColumn.of, hintegral] using hmarkers

/-- The section COLUMNS: variables without an entry leave nothing. -/
theorem shows_columnLines (h : ∀ t ∈ m.terms, ∃ x, t.factor.real? = some x) :
    List.Forall₂ Shows (columnLines m) (headingCard "COLUMNS" ::
      ((Deck.ofModel m).columns.flatMap DeckColumn.items).map ColumnItem.card) := by
  refine .cons (shows_of_number?_eq_none (l := .columns) rfl) ?_
  rw [Deck.ofModel, flatMap_filter_map, List.map_flatMap]
  refine List.rel_flatMap (List.forall₂_same.mpr fun _ _ => rfl) ?_
  rintro p _ rfl
  simp only [Model.entriesOf_eq]
  by_cases hentry : m.hasEntry p.1 = true
  · have hne : (m.entriesFor p.1).isEmpty = false := by simp [m.entriesFor_isEmpty, hentry]
    rw [if_pos hentry]
    refine shows_columnBlock p.2 p.1 (fun e he => ?_) hne
    obtain ⟨t, ht, hfactor⟩ := Model.factor_of_mem_entriesFor he
    exact hfactor ▸ h t ht
  · have hempty : (m.entriesFor p.1).isEmpty = true := by simp [m.entriesFor_isEmpty, hentry]
    rw [if_neg hentry, columnBlock, if_pos hempty]
    exact .nil

/-- The section RHS. -/
theorem shows_rhsLines (m : Model Float) :
    List.Forall₂ Shows (rhsLines m) (headingCard "RHS" ::
      (Deck.ofModel m).rightHandSides.map rightHandSideCard) := by
  refine .cons (shows_of_number?_eq_none (l := .rhs) rfl) ?_
  simp only [Deck.ofModel, List.map_map, List.forall₂_map_left_iff, List.forall₂_map_right_iff,
    List.forall₂_same]
  exact fun p _ => shows_of_number? rfl fun t => rfl

/-- The section BOUNDS. -/
theorem shows_boundLines (m : Model Float) :
    List.Forall₂ Shows ((boundLines m).map some) (headingCard "BOUNDS" ::
      (Deck.ofModel m).binaries.map binaryCard) := by
  refine .cons (shows_of_number?_eq_none rfl) ?_
  have hfilter : (fun p : Variable Float × Nat => p.1.isBinary && !(m.entriesOf p.1).isEmpty)
      = fun p => m.hasEntry p.1 && (p.1.domain ≠ .real && (p.1.minimum?.any (·.equals (.int 0)) &&
          p.1.maximum?.any (·.equals (.int 1)))) := by
    funext p
    rw [Model.entriesOf_eq, m.entriesFor_isEmpty, Bool.not_not, Bool.and_comm]
    rfl
  simp only [Deck.ofModel, hfilter, List.map_map, List.forall₂_map_left_iff,
    List.forall₂_map_right_iff, List.forall₂_same]
  exact fun p _ => shows_of_number?_eq_none rfl

/-- All lines of the file show the cards of the deck. -/
theorem shows_fileLines (h : ∀ t ∈ m.terms, ∃ x, t.factor.real? = some x) :
    List.Forall₂ Shows (fileLines m) (Deck.ofModel m).cards := by
  have hhead : List.Forall₂ Shows ([Line.sense m.optimization, .name].map some)
      [senseCard (m.objective?.elim .minimize (·.optimization)), nameCard] :=
    .cons (shows_of_number?_eq_none rfl) (.cons (shows_of_number?_eq_none rfl) .nil)
  have hend : List.Forall₂ Shows [some Line.endData] [headingCard "ENDATA"] :=
    .cons (shows_of_number?_eq_none rfl) .nil
  have hall := List.rel_append (List.rel_append (List.rel_append (List.rel_append
    (List.rel_append hhead (shows_rowLines m)) (shows_columnLines h)) (shows_rhsLines m))
    (shows_boundLines m)) hend
  simpa [fileLines, Deck.cards, Deck.ofModel] using hall

/-! ## The text is cut into its cards -/

theorem exists_lines_of_shows : ∀ {os : List (Option Line)} {cs : List Card},
    List.Forall₂ Shows os cs →
      ∃ ls, os.mapM id = some ls ∧ (∀ l ∈ ls, l.IsWritten) ∧ ls.map Line.words = cs
  | _, _, .nil => ⟨[], rfl, by simp, rfl⟩
  | _, _, .cons ⟨l, hl, hwritten, hwords⟩ hrest => by
    obtain ⟨ls, hls, hall, hmap⟩ := exists_lines_of_shows hrest
    refine ⟨l :: ls, by simp [hl, hls], ?_, by simp [hwords, hmap]⟩
    exact List.forall_mem_cons.mpr ⟨hwritten, hall⟩

/-- Lines are cut out of the text at their line feeds, and cards out of the lines. -/
theorem ofText?_join {ls : List Line} (h : ∀ l ∈ ls, l.IsWritten) :
    Deck.ofText? (String.join (ls.map Line.text)).toList = Deck.read (ls.map Line.words) := by
  have htext : (String.join (ls.map Line.text)).toList
      = (ls.map Line.body).flatMap (· ++ ['\n']) := by
    rw [String.toList_join, List.flatMap_map, List.flatMap_map]
    exact List.flatMap_congr fun l hl => (text_eq_body_newline (h l hl)).1
  have hlines : Text.lines (String.join (ls.map Line.text)).toList = ls.map Line.body ++ [[]] := by
    rw [htext]
    refine Text.lines_flatMap fun body hbody => ?_
    obtain ⟨l, hl, rfl⟩ := List.mem_map.mp hbody
    exact (text_eq_body_newline (h l hl)).2
  have hwords : (ls.map Line.body).map Text.words = ls.map Line.words := by
    rw [List.map_map]
    exact List.map_congr_left fun l hl => words_body (h l hl)
  rw [Deck.ofText?, hlines, List.getLast?_concat, if_pos rfl, List.dropLast_concat, hwords]

theorem exists_text (m : Model Float) (h : ∀ t ∈ m.terms, ∃ x, t.factor.real? = some x) :
    ∃ s, text? m = some s ∧ Deck.ofText? s.toList = some (Deck.ofModel m) := by
  obtain ⟨ls, hls, hwritten, hwords⟩ := exists_lines_of_shows (shows_fileLines h)
  refine ⟨String.join (ls.map Line.text), ?_, ?_⟩
  · rw [text?, lines?, hls, Option.map_some]
  · rw [ofText?_join hwritten, hwords, read_cards (wellFormed_ofModel m)]

/-- **The file of a model is well formed and decodable**: it is written when every factor
is a double or can be made one, and what is read from it is the deck of the model. -/
theorem ofText?_text (m : Model Float) (h : ∀ t ∈ m.terms, ∃ x, t.factor.real? = some x) :
    ∃ s, text? m = some s ∧ Deck.ofText? s.toList = some (Deck.ofModel m) ∧
      (Deck.ofModel m).WellFormed ∧
      ∀ t ∈ m.terms, numberText? t.factor = some (numberText t.factor) := by
  obtain ⟨s, hs, hread⟩ := exists_text m h
  refine ⟨s, hs, hread, wellFormed_ofModel m, fun t ht => ?_⟩
  obtain ⟨x, hx⟩ := h t ht
  exact numberText?_eq_some hx

/-- A model whose second variable has no column: its only factor is zero.  The third one is
binary and stands twice in a row. -/
def gapModel : Model Float :=
  let x : Variable Float := ⟨0, Text.ofString "x", .real, none, some (.real 4.0)⟩
  let y : Variable Float := ⟨1, Text.ofString "y", .integer, none, none⟩
  let z : Variable Float := ⟨2, Text.ofString "z", .binary, some (.real 0.0), some (.real 1.0)⟩
  { name := Text.ofString "gap"
    objective? := some ⟨⟨[⟨x, .real 2.5⟩, ⟨y, .real 0.0⟩], 7.0⟩, .maximize⟩
    constraints := [
      ⟨⟨⟨[⟨z, .real 3.0⟩, ⟨x, .real 1.0⟩, ⟨z, .real (-1.0)⟩], 2.0⟩, .lte, 6.0⟩, none⟩,
      ⟨⟨⟨[⟨z, .real 5.0⟩], 0.0⟩, .eq, 0.5⟩, some (Text.ofString "last")⟩] }

theorem real?_gapModel : ∀ t ∈ gapModel.terms, ∃ x, t.factor.real? = some x := by
  simp [gapModel, Model.terms, Model.functions, Number.real?]

theorem ofText?_text_gapModel :
    (∀ t ∈ gapModel.terms, ∃ x, t.factor.real? = some x) ∧
      ∃ s, text? gapModel = some s ∧ Deck.ofText? s.toList = some (Deck.ofModel gapModel) ∧
        (Deck.ofModel gapModel).WellFormed ∧
        ∀ t ∈ gapModel.terms, numberText? t.factor = some (numberText t.factor) :=
  ⟨real?_gapModel, ofText?_text gapModel real?_gapModel⟩

end LinearProgram.Mps
