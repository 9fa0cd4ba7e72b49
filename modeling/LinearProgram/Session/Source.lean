import LinearProgram.Session.Making
/-!
# Sources

A step takes its values from sources: what an earlier step kept, or a value that is
written out and becomes a new object each time.
-/
namespace LinearProgram.Session

/-- Where a step takes a value from. -/
inductive Source where
  /-- What an earlier step kept under a name. -/
  | kept (name : Text)
  | nothing
  | number (k : Number Float)
  /-- A real, as it is written. -/
  | numeral (t : Text)
  | text (t : Text)
  | list (sources : List Source)
  | record (keys : List Text) (sources : List Source)
  /-- Something that has no value. -/
  | broken (fault : Fault)

/-- The two parts of a pair. -/
def Source.pair : Source → Except Fault (Source × Source)
  | .list [a, b] => .ok (a, b)
  | .list ss => .error (pairFault ss.length)
  | .text [p, q] => .ok (.text [p], .text [q])
  | .text t => .error (pairFault t.length)
  | .record [k, l] _ => .ok (.text k, .text l)
  | .record keys _ => .error (pairFault keys.length)
  | .broken fault => .error fault
  | _ => .error .unsupported
where
  /-- The fault of something with another number of parts than two. -/
  pairFault (count : Nat) : Fault :=
    if count < 2 then .shortPair count else .longPair

/-- What a session has kept, the latest first. -/
abbrev Store := List (Text × Value)

/-- The value kept under a name. -/
def Store.find (store : Store) (name : Text) : Except Fault Value :=
  match store.lookup name with
  | some v => .ok v
  | none => .error (.unknownName (Text.quoted name))

mutual

/-- The value of a source. -/
def Source.value (store : Store) : Source → Making Value
  | .kept name => store.find name
  | .nothing => return .nothing
  | .number k => Value.newNumber k
  | .numeral t => do
    Value.newNumber (.real (← orFault (.notNumeral (Text.quoted t)) (Text.real? t.chars)))
  | .text t => Value.newText t
  | .list sources => do Value.newList (← valuesOfSources store sources)
  | .record keys sources => do return .record (← fresh) keys (← valuesOfSources store sources)
  | .broken fault => throw fault

/-- The values of sources, in order. -/
def valuesOfSources (store : Store) : List Source → Making (List Value)
  | [] => return []
  | s :: ss => do return (← s.value store) :: (← valuesOfSources store ss)

end

/-- The value of a source that may be absent. -/
def Source.valueOr (store : Store) (default : Value) : Option Source → Making Value
  | some s => s.value store
  | none => return default

end LinearProgram.Session
