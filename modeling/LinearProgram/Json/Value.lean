import LinearProgram.Text
/-!
# JSON values

Integers are exact and of any size, other numbers are doubles.  The fields of an
object keep the order in which their keys first occurred; a key that is written
twice has the later value.
-/
namespace LinearProgram

/-- A JSON value. -/
inductive Json where
  | null
  | bool (b : Bool)
  | int (n : Int)
  | real (x : Float)
  | text (t : Text)
  | array (items : List Json)
  | object (fields : List (Text × Json))
deriving Repr

namespace Json

/-- The value of a key. -/
def field? (fields : List (Text × Json)) (key : Text) : Option Json :=
  (fields.find? (·.1 = key)).map (·.2)

/-- Fields with one more; a key that is there keeps its place and takes the new value. -/
def setField (key : Text) (value : Json) :
    List (Text × Json) → List (Text × Json)
  | [] => [(key, value)]
  | f :: fs => if f.1 = key then (key, value) :: fs else f :: setField key value fs

/-- Fields in the order of first occurrence of their keys, each with its last value. -/
def uniqueFields (fields : List (Text × Json)) : List (Text × Json) :=
  fields.foldl (fun fs f => setField f.1 f.2 fs) []

/-! ## What a value holds -/

mutual

/-- Whether every real and every text in a value, at any depth, passes its test. -/
def all (real : Float → Bool) (text : Text → Bool) : Json → Bool
  | .null | .bool _ | .int _ => true
  | .real x => real x
  | .text t => text t
  | .array items => allItems real text items
  | .object fields => allFields real text fields

/-- The same for the items of an array. -/
def allItems (real : Float → Bool) (text : Text → Bool) : List Json → Bool
  | [] => true
  | j :: js => j.all real text && allItems real text js

/-- The same for the fields of an object and their keys. -/
def allFields (real : Float → Bool) (text : Text → Bool) : List (Text × Json) → Bool
  | [] => true
  | (k, j) :: fs => text k && j.all real text && allFields real text fs

end

mutual

/-- The value with another one in the place of every real. -/
def mapReals (f : Float → Json) : Json → Json
  | .real x => f x
  | .array items => .array (mapItems f items)
  | .object fields => .object (mapFields f fields)
  | j => j

/-- The same for the items of an array. -/
def mapItems (f : Float → Json) : List Json → List Json
  | [] => []
  | j :: js => j.mapReals f :: mapItems f js

/-- The same for the fields of an object. -/
def mapFields (f : Float → Json) : List (Text × Json) → List (Text × Json)
  | [] => []
  | (k, j) :: fs => (k, j.mapReals f) :: mapFields f fs

end

end Json

end LinearProgram
