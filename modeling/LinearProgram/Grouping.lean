/-!
# Grouping by key

`group` collects the values that share a key: one entry a key, keys in the order
of their first occurrence, the values of a key in their order in the list.
-/
namespace LinearProgram

variable {κ α : Type} [DecidableEq κ]

/-- The values that stand under a key. -/
def valuesOf (k : κ) (ps : List (κ × α)) : List α :=
  ps.filterMap fun p => if p.1 = k then some p.2 else none

/-- The distinct keys, in the order of first occurrence, each with its values. -/
def group (ps : List (κ × α)) : List (κ × List α) :=
  (ps.map (·.1)).eraseDups.map fun k => (k, valuesOf k ps)

/-- The last value that stands under a key. -/
def lastValue? (k : κ) (ps : List (κ × α)) : Option α :=
  (valuesOf k ps).getLast?

/-- One entry for each key, with the last value given to it; keys in the order of
first occurrence. -/
def lastValues (ps : List (κ × α)) : List (κ × α) :=
  (group ps).filterMap fun g => g.2.getLast?.map fun a => (g.1, a)

end LinearProgram
