import LinearProgram.Schema.Scalar
/-!
# Schemas

A schema describes the JSON values that stand for the values of a type.  Reading by
a schema checks a value completely and reports every problem, fields in the order
of their declaration and unknown fields last; a record with a surrogate in one of its
keys is refused as a whole.  Writing gives the JSON value with every field filled in.
-/
namespace LinearProgram

mutual

/-- How values of a type are given in JSON. -/
inductive Schema : Type → Type 1 where
  /-- A text of at least a number of characters. -/
  | text (least : Nat) : Schema Text
  | number : Schema Float
  | truth : Schema Bool
  /-- One of several named values. -/
  | choice {α : Type} (choices : List α) (name : α → String) : Schema α
  /-- A value or null. -/
  | optional {α : Type} (s : Schema α) : Schema (Option α)
  | list {α : Type} (s : Schema α) : Schema (List α)
  /-- An object whose keys are free. -/
  | table {α : Type} (s : Schema α) : Schema (List (Text × α))
  /-- An object with given fields and no others, which make up a value. -/
  | record {α β : Type} (className : String) (fields : Fields β)
      (make : β → α) (view : α → β) (make_view : ∀ a, make (view a) = a) : Schema α

/-- The fields of a record, in the order of their declaration. -/
inductive Fields : Type → Type 1 where
  | done : Fields Unit
  /-- A field, which may be left out if it has a default. -/
  | field {α β : Type} (key : String) (s : Schema α) (default? : Option α)
      (rest : Fields β) : Fields (α × β)

end

/-- Whether a problem with a record names its class. -/
inductive RecordWording where
  | byClass
  | plain
deriving DecidableEq, Repr

/-- The problem of a value that is no object where a record is wanted. -/
def RecordWording.problem (w : RecordWording) (className : String) : ProblemKind :=
  match w with
  | byClass => .notRecord className
  | plain => .notFields

/-- The keys of the fields. -/
def Fields.keys : {β : Type} → Fields β → List Text
  | _, .done => []
  | _, .field key _ _ rest => key :: rest.keys

/-- A problem for each key that is not one of the known ones. -/
def unknownKeys (known : List Text) (fields : List (Text × Json)) : Checked Unit :=
  match fields.filter (!known.contains ·.1) with
  | [] => .ok ()
  | fs => .error (fs.map fun f => ⟨[.key f.1], .extra, f.2⟩)

/-- A key as a step of a path, where the three bytes that a surrogate would take each
become U+FFFD. -/
def shownKey (key : Text) : Text :=
  key.flatMap fun p =>
    if p.isSurrogate then Text.ofChars ['\uFFFD', '\uFFFD', '\uFFFD'] else [p]

mutual

/-- Reads a value, or reports all its problems. -/
def Schema.read (w : RecordWording) : {α : Type} → Schema α → Json → Checked α
  | _, .text least, j => Schema.readText least j
  | _, .number, j => Schema.readNumber j
  | _, .truth, j => Schema.readTruth j
  | _, .choice choices name, j => Schema.readChoice choices name j
  | _, .optional s, j =>
    match j with
    | .null => .ok none
    | j => (s.read w j).map some
  | _, .list s, j =>
    match j with
    | .array items =>
      Checked.all (items.zipIdx.map fun p => Checked.under (.index p.2) (s.read w p.1))
    | j => .wrong .notList j
  | _, .table s, j =>
    match j with
    | .object fields =>
      Checked.all (fields.map fun f =>
        (Checked.under (.key (shownKey f.1)) (s.read w f.2)).map fun a => (f.1, a))
    | j => .wrong .notTable j
  | _, .record className fields make _ _, j =>
    match j with
    | .object given =>
      if !given.all (·.1.isWellFormed) then .wrong .notUnicode (.object given)
      else (Checked.both (fields.read w given) (unknownKeys fields.keys given)).map
        fun p => make p.1
    | j => .wrong (w.problem className) j

/-- Reads the fields of a record from the fields of an object. -/
def Fields.read (w : RecordWording) :
    {β : Type} → Fields β → List (Text × Json) → Checked β
  | _, .done, _ => .ok ()
  | _, .field key s default? rest, given =>
    Checked.both
      (match Json.field? given key, default? with
        | some j, _ => Checked.under (.key key) (s.read w j)
        | none, some d => .ok d
        | none, none => .error [⟨[.key key], .missing, .object given⟩])
      (rest.read w given)

end

mutual

/-- The JSON value of a value, with every field filled in. -/
def Schema.write : {α : Type} → Schema α → α → Json
  | _, .text _, s => .text s
  | _, .number, x => .real x
  | _, .truth, b => .bool b
  | _, .choice _ name, a => .text (name a)
  | _, .optional s, a? =>
    match a? with
    | none => .null
    | some a => s.write a
  | _, .list s, as => .array (as.map s.write)
  | _, .table s, fields => .object (fields.map fun f => (f.1, s.write f.2))
  | _, .record _ fields _ view _, a => .object (fields.write (view a))

/-- The fields of an object for the fields of a record. -/
def Fields.write : {β : Type} → Fields β → β → List (Text × Json)
  | _, .done, _ => []
  | _, .field key s _ rest, b => (key, s.write b.1) :: rest.write b.2

end

end LinearProgram
