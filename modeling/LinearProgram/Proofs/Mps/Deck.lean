import Mathlib
import LinearProgram.Proofs.Lists
import LinearProgram.Proofs.Mps.Line
/-!
# Decks: what a model file says

A `Deck` is the content of a model file without its layout: direction, rows, columns with
their entries, right-hand sides and binary columns, all by name, and numbers by their text.
`Deck.read` reads one from the words of each line, called a card, and knows nothing about
models or about the writer; it refuses whatever is not laid out as the format asks.
`Deck.cards` are the cards of a deck.

The main statement is `read_cards`: a deck that keeps its names apart is read back from its
cards.

## How the proof goes

A section ends at the first card that is nothing but the heading of the next one
(`upTo?_append`).  Within COLUMNS the reader is in one of four states, `Stage`.  Cards of the
column that is being read are added to it (`readColumns_entries`), and
`readColumns_items` follows the reader along all columns: the induction needs the reader both
between two columns and within a real one, which only the next column's name ends.
-/
namespace LinearProgram.Mps

/-- A column: its name, whether it stands between markers, and for each entry the name of the
row and the text of the number. -/
structure DeckColumn where
  name : List Char
  integral : Bool
  entries : List (List Char × List Char)
deriving DecidableEq, Repr

/-- The content of a model file. -/
structure Deck where
  optimization : Optimization
  hasObjective : Bool
  /-- The rows of the constraints, each with its comparison. -/
  rows : List (Comparison × List Char)
  columns : List DeckColumn
  /-- The names of rows with the texts of their right-hand sides. -/
  rightHandSides : List (List Char × List Char)
  /-- The names of columns that take the values 0 and 1 only. -/
  binaries : List (List Char)
deriving DecidableEq, Repr

/-! ## Cards -/

def senseCard (o : Optimization) : Card := [directionWord o]

def nameCard : Card := ["NAME".toList, "MODEL".toList]

def objectiveCard : Card := ["N".toList, objectiveName]

def rowCard (r : Comparison × List Char) : Card := [comparisonWord r.1, r.2]

/-- What may stand in the section COLUMNS. -/
inductive ColumnItem where
  | marker (opens : Bool)
  | entry (column : List Char) (e : List Char × List Char)
deriving DecidableEq, Repr

def ColumnItem.card : ColumnItem → Card
  | marker true => ["MARK".toList, "'MARKER'".toList, "'INTORG'".toList]
  | marker false => ["MARK".toList, "'MARKER'".toList, "'INTEND'".toList]
  | entry column e => [column, e.1, e.2]

def rightHandSideCard (e : List Char × List Char) : Card := ["RHS".toList, e.1, e.2]

def binaryCard (column : List Char) : Card := ["BV".toList, "BND".toList, column]

def headingCard (heading : String) : Card := [heading.toList]

/-- What a column consists of: its entries, between markers if it is integral. -/
def DeckColumn.items (c : DeckColumn) : List ColumnItem :=
  if c.integral then .marker true :: c.entries.map (.entry c.name) ++ [.marker false]
  else c.entries.map (.entry c.name)

/-- The cards of a deck. -/
def Deck.cards (d : Deck) : List Card :=
  [senseCard d.optimization, nameCard] ++
    headingCard "ROWS" :: ((if d.hasObjective then [objectiveCard] else []) ++ d.rows.map rowCard ++
    headingCard "COLUMNS" :: ((d.columns.flatMap DeckColumn.items).map ColumnItem.card ++
    headingCard "RHS" :: (d.rightHandSides.map rightHandSideCard ++
    headingCard "BOUNDS" :: (d.binaries.map binaryCard ++
    [headingCard "ENDATA"]))))

/-! ## Reading -/

/-- The cards before the first that is the heading, and those after it. -/
def upTo? (heading : String) : List Card → Option (List Card × List Card)
  | [] => none
  | c :: cs =>
    if c = headingCard heading then some ([], cs)
    else (upTo? heading cs).map fun p => (c :: p.1, p.2)

/-- The direction, from the cards before the first section. -/
def readSense? (cs : List Card) : Option Optimization :=
  if cs = [["*SENSE:Minimize".toList], nameCard] then some .minimize
  else if cs = [["*SENSE:Maximize".toList], nameCard] then some .maximize
  else none

/-- Whether the section ROWS starts with the objective, and its other cards. -/
def readObjective : List Card → Bool × List Card
  | c :: cs => if c = objectiveCard then (true, cs) else (false, c :: cs)
  | [] => (false, [])

/-- The row of a constraint: L stands for at most, E for equal and G for at least. -/
def readRow? : Card → Option (Comparison × List Char)
  | [['L'], name] => some (.lte, name)
  | [['E'], name] => some (.eq, name)
  | [['G'], name] => some (.gte, name)
  | _ => none

def readItem? (c : Card) : Option ColumnItem :=
  if c = (ColumnItem.marker true).card then some (.marker true)
  else if c = (ColumnItem.marker false).card then some (.marker false)
  else match c with
    | [column, row, number] => some (.entry column (row, number))
    | _ => none

/-- Where the reader of the section COLUMNS stands. -/
inductive Stage where
  /-- Between two columns, outside markers. -/
  | between
  /-- After an opening marker. -/
  | opened
  /-- Within a column, of which these entries have been read. -/
  | within (c : DeckColumn)

/-- Reads the section COLUMNS.  Markers are not nested and hold one column each; what is not
between markers is cut into columns where the name changes. -/
def readColumns : Stage → List ColumnItem → Option (List DeckColumn)
  | .between, [] => some []
  | .between, .marker true :: items => readColumns .opened items
  | .between, .marker false :: _ => none
  | .between, .entry column e :: items => readColumns (.within ⟨column, false, [e]⟩) items
  | .opened, .entry column e :: items => readColumns (.within ⟨column, true, [e]⟩) items
  | .opened, _ => none
  | .within c, [] => if c.integral then none else some [c]
  | .within c, .marker true :: items =>
    if c.integral then none else (readColumns .opened items).map (c :: ·)
  | .within c, .marker false :: items =>
    if c.integral then (readColumns .between items).map (c :: ·) else none
  | .within c, .entry column e :: items =>
    if column = c.name then readColumns (.within ⟨c.name, c.integral, c.entries ++ [e]⟩) items
    else if c.integral then none
    else (readColumns (.within ⟨column, false, [e]⟩) items).map (c :: ·)

/-- The right-hand side of a row. -/
def readRightHandSide? : Card → Option (List Char × List Char)
  | [set, row, number] => if set = "RHS".toList then some (row, number) else none
  | _ => none

/-- The name of a binary column. -/
def readBinary? : Card → Option (List Char)
  | [kind, set, column] =>
    if kind = "BV".toList ∧ set = "BND".toList then some column else none
  | _ => none

/-- Reads a deck from the cards of a file, all of them. -/
def Deck.read (cs : List Card) : Option Deck := do
  let (head, cs) ← upTo? "ROWS" cs
  let (rows, cs) ← upTo? "COLUMNS" cs
  let (columns, cs) ← upTo? "RHS" cs
  let (rightHandSides, cs) ← upTo? "BOUNDS" cs
  let (binaries, cs) ← upTo? "ENDATA" cs
  let optimization ← readSense? head
  let (hasObjective, rows) := readObjective rows
  let rows ← rows.mapM readRow?
  let columns ← (← columns.mapM readItem?) |> readColumns .between
  let rightHandSides ← rightHandSides.mapM readRightHandSide?
  let binaries ← binaries.mapM readBinary?
  if cs.isEmpty then
    some ⟨optimization, hasObjective, rows, columns, rightHandSides, binaries⟩
  else none

/-- Reads a deck from a text whose last line is ended. -/
def Deck.ofText? (text : List Char) : Option Deck :=
  if (Text.lines text).getLast? = some [] then
    Deck.read ((Text.lines text).dropLast.map Text.words)
  else none

/-! ## Well-formed decks -/

/-- The names of rows that entries may stand in. -/
def Deck.rowNames (d : Deck) : List (List Char) :=
  (if d.hasObjective then [objectiveName] else []) ++ d.rows.map (·.2)

/-- Rows and columns have names of their own, and whatever is named is declared. -/
structure Deck.WellFormed (d : Deck) : Prop where
  rows_named : ∀ r ∈ d.rows, ∃ k : Nat, r.2 = rowWord k
  rows_nodup : d.rowNames.Nodup
  columns_named : ∀ c ∈ d.columns, ∃ i : Nat, c.name = columnWord i
  columns_nodup : (d.columns.map (·.name)).Nodup
  /-- No row is named like a column, not even the objective. -/
  names_apart : ∀ r ∈ objectiveName :: d.rowNames, r ∉ d.columns.map (·.name)
  entries_ne_nil : ∀ c ∈ d.columns, c.entries ≠ []
  entries_declared : ∀ c ∈ d.columns, ∀ e ∈ c.entries, e.1 ∈ d.rowNames
  /-- Each constraint has one right-hand side, in order. -/
  rightHandSides_rows : d.rightHandSides.map (·.1) = d.rows.map (·.2)
  /-- The binary columns are columns that stand between markers, in order. -/
  binaries_declared :
    d.binaries.Sublist ((d.columns.filter (·.integral)).map (·.name))

/-! ## Cards are read back -/

theorem upTo?_append {heading : String} : ∀ {cs : List Card}, (∀ c ∈ cs, c ≠ headingCard heading) →
    ∀ rest : List Card, upTo? heading (cs ++ headingCard heading :: rest) = some (cs, rest)
  | [], _, rest => by simp [upTo?]
  | c :: cs, h, rest => by
    have hrest := upTo?_append (fun d hd => h d (List.mem_cons_of_mem _ hd)) rest
    simp [upTo?, h c (List.mem_cons_self ..), hrest]

theorem readSense?_eq (o : Optimization) : readSense? [senseCard o, nameCard] = some o := by
  cases o <;> decide

theorem readRow?_rowCard (r : Comparison × List Char) : readRow? (rowCard r) = some r := by
  obtain ⟨c, name⟩ := r
  cases c <;> rfl

theorem rowCard_ne_objectiveCard (r : Comparison × List Char) : rowCard r ≠ objectiveCard := by
  obtain ⟨c, name⟩ := r
  intro h
  have hletter : comparisonWord c = "N".toList := (List.cons.inj h).1
  revert hletter
  cases c <;> decide

/-- The objective is told from the constraints by its letter. -/
theorem readObjective_cards (hasObjective : Bool) (rows : List (Comparison × List Char)) :
    readObjective ((if hasObjective then [objectiveCard] else []) ++ rows.map rowCard)
      = (hasObjective, rows.map rowCard) := by
  cases hasObjective with
  | true => simp [readObjective]
  | false =>
    cases rows with
    | nil => rfl
    | cons r rows => simp [readObjective, rowCard_ne_objectiveCard]

theorem mapM_map_eq_some {α β : Type} {write : α → β} {read : β → Option α}
    (h : ∀ a, read (write a) = some a) (xs : List α) : (xs.map write).mapM read = some xs := by
  rw [mapM_eq_some_iff, List.forall₂_map_left_iff, List.forall₂_same]
  exact fun a _ => h a

/-! ### Columns -/

/-- The cards of columns are read one by one; no name of a column starts a marker. -/
theorem mapM_readItem? {cs : List DeckColumn} (h : ∀ c ∈ cs, ∃ i : Nat, c.name = columnWord i) :
    ((cs.flatMap DeckColumn.items).map ColumnItem.card).mapM readItem?
      = some (cs.flatMap DeckColumn.items) := by
  rw [mapM_eq_some_iff, List.forall₂_map_left_iff, List.forall₂_same]
  intro item hitem
  obtain ⟨c, hc, hitem⟩ := List.mem_flatMap.mp hitem
  obtain ⟨i, hname⟩ := h c hc
  match item with
  | .marker true => rfl
  | .marker false => rfl
  | .entry column e =>
    have hcolumn : column = columnWord i := by
      rw [← hname]
      unfold DeckColumn.items at hitem
      split at hitem
      · simp only [List.cons_append, List.mem_cons, List.mem_append, List.mem_map,
          List.not_mem_nil, or_false, reduceCtorEq, false_or, ColumnItem.entry.injEq] at hitem
        obtain ⟨_, _, hcolumn, _⟩ := hitem
        exact hcolumn.symm
      · obtain ⟨_, _, heq⟩ := List.mem_map.mp hitem
        exact (ColumnItem.entry.inj heq).1.symm
    have hne : ∀ opens, (ColumnItem.entry column e).card ≠ (ColumnItem.marker opens).card := by
      intro opens heq
      have hfirst : columnWord i = "MARK".toList := by
        rw [← hcolumn]
        cases opens <;> exact (List.cons.inj heq).1
      exact absurd (List.cons.inj hfirst).1 (by decide)
    unfold readItem?
    rw [if_neg (hne true), if_neg (hne false)]
    rfl

/-- Entries of the column that is being read are added to it. -/
theorem readColumns_entries (name : List Char) (integral : Bool) (rest : List ColumnItem) :
    ∀ (es read : List (List Char × List Char)),
      readColumns (.within ⟨name, integral, read⟩) (es.map (.entry name) ++ rest)
        = readColumns (.within ⟨name, integral, read ++ es⟩) rest
  | [], read => by simp
  | e :: es, read => by
    have hrest := readColumns_entries name integral rest es (read ++ [e])
    rw [List.map_cons, List.cons_append, readColumns, if_pos rfl, hrest, List.append_assoc]
    rfl

/-- An integral column is read from its opening marker to its closing one. -/
theorem readColumns_opened (name : List Char) {es : List (List Char × List Char)} (hes : es ≠ [])
    (rest : List ColumnItem) :
    readColumns .opened (es.map (.entry name) ++ .marker false :: rest)
      = (readColumns .between rest).map (⟨name, true, es⟩ :: ·) := by
  obtain ⟨e, es, rfl⟩ := List.exists_cons_of_ne_nil hes
  rw [List.map_cons, List.cons_append, readColumns, readColumns_entries, readColumns, if_pos rfl]
  rfl

/-- The reader follows the columns, whether it stands between two of them or has just read
the entries of a real one. -/
theorem readColumns_items : ∀ {cs : List DeckColumn}, (cs.map (·.name)).Nodup →
    (∀ c ∈ cs, c.entries ≠ []) →
      readColumns .between (cs.flatMap DeckColumn.items) = some cs ∧
        ∀ c : DeckColumn, c.integral = false → c.name ∉ cs.map (·.name) →
          readColumns (.within c) (cs.flatMap DeckColumn.items) = some (c :: cs)
  | [], _, _ => ⟨rfl, fun c hc _ => by simp [readColumns, hc]⟩
  | ⟨name, integral, es⟩ :: cs, hnodup, hentries => by
    obtain ⟨hname, hnodup⟩ := List.nodup_cons.mp hnodup
    obtain ⟨hbetween, hwithin⟩ := readColumns_items hnodup
      (fun c hc => hentries c (List.mem_cons_of_mem _ hc))
    have hes : es ≠ [] := hentries _ (List.mem_cons_self ..)
    cases integral with
    | true =>
      have hblock := readColumns_opened name hes (cs.flatMap DeckColumn.items)
      rw [hbetween, Option.map_some] at hblock
      have hitems : (⟨name, true, es⟩ :: cs).flatMap DeckColumn.items
          = .marker true :: (es.map (.entry name) ++
              .marker false :: cs.flatMap DeckColumn.items) := by
        simp [DeckColumn.items]
      rw [hitems]
      constructor
      · rw [readColumns, hblock]
      · intro c hc _
        rw [readColumns, hc, hblock]
        rfl
    | false =>
      obtain ⟨e, es, rfl⟩ := List.exists_cons_of_ne_nil hes
      have hblock := readColumns_entries name false (cs.flatMap DeckColumn.items) es [e]
      rw [List.singleton_append, hwithin _ rfl hname] at hblock
      have hitems : (⟨name, false, e :: es⟩ :: cs).flatMap DeckColumn.items
          = .entry name e :: (es.map (.entry name) ++ cs.flatMap DeckColumn.items) := by
        simp [DeckColumn.items]
      rw [hitems]
      constructor
      · rw [readColumns, hblock]
      · intro c hc hnotin
        have hne : name ≠ c.name := fun h => hnotin (by simp [h])
        rw [readColumns, if_neg hne, hc, hblock]
        rfl

example (e : List Char × List Char) :
    readColumns .between [.entry ['X'] e, .marker true, .entry ['Y'] e, .marker false]
      = some [⟨['X'], false, [e]⟩, ⟨['Y'], true, [e]⟩] := rfl

-- No column without a marker stands in the block of another one.
example (e : List Char × List Char) :
    readColumns .between [.marker true, .entry ['X'] e, .entry ['Y'] e, .marker false] = none := rfl

/-! ### Decks -/

/-- **A well-formed deck is read back from its cards.** -/
theorem read_cards {d : Deck} (h : d.WellFormed) : Deck.read d.cards = some d := by
  obtain ⟨optimization, hasObjective, rows, columns, rightHandSides, binaries⟩ := d
  have hhead : ∀ c ∈ [senseCard optimization, nameCard], c ≠ headingCard "ROWS" := by
    cases optimization <;> decide
  have hrows : ∀ c ∈ (if hasObjective then [objectiveCard] else []) ++ rows.map rowCard,
      c ≠ headingCard "COLUMNS" := by
    intro c hc
    rcases List.mem_append.mp hc with hc | hc
    · cases hasObjective with
      | true => obtain rfl := List.mem_singleton.mp hc; simp [objectiveCard, headingCard]
      | false => cases hc
    · obtain ⟨r, _, rfl⟩ := List.mem_map.mp hc
      simp [rowCard, headingCard]
  have hcolumns : ∀ c ∈ (columns.flatMap DeckColumn.items).map ColumnItem.card,
      c ≠ headingCard "RHS" := by
    intro c hc
    obtain ⟨item, _, rfl⟩ := List.mem_map.mp hc
    match item with
    | .marker true => simp [ColumnItem.card, headingCard]
    | .marker false => simp [ColumnItem.card, headingCard]
    | .entry column e => simp [ColumnItem.card, headingCard]
  have hrightHandSides : ∀ c ∈ rightHandSides.map rightHandSideCard, c ≠ headingCard "BOUNDS" := by
    intro c hc
    obtain ⟨e, _, rfl⟩ := List.mem_map.mp hc
    simp [rightHandSideCard, headingCard]
  have hbinaries : ∀ c ∈ binaries.map binaryCard, c ≠ headingCard "ENDATA" := by
    intro c hc
    obtain ⟨name, _, rfl⟩ := List.mem_map.mp hc
    simp [binaryCard, headingCard]
  have hitems := mapM_readItem? h.columns_named
  have hread := (readColumns_items h.columns_nodup h.entries_ne_nil).1
  simp only [Deck.read, Deck.cards, upTo?_append hhead, upTo?_append hrows, upTo?_append hcolumns,
    upTo?_append hrightHandSides, upTo?_append hbinaries, Option.bind_eq_bind, Option.bind_some,
    readSense?_eq, readObjective_cards, mapM_map_eq_some readRow?_rowCard, hitems, hread,
    mapM_map_eq_some (fun e => rfl : ∀ e, readRightHandSide? (rightHandSideCard e) = some e),
    mapM_map_eq_some (fun name => rfl : ∀ name, readBinary? (binaryCard name) = some name),
    List.isEmpty_nil, if_true]

end LinearProgram.Mps
