import LinearProgram.Text
/-!
# Solutions

A solution is a status and the values of the variables that the solver reported,
under their names.
-/
namespace LinearProgram

/-- What a solver found out about a model. -/
inductive Status where
  | optimal
  | infeasible
  | unbounded
  | unsolved
  | undefined
deriving DecidableEq, Repr

/-- The word for a status. -/
def Status.name : Status → String
  | optimal => "optimal"
  | infeasible => "infeasible"
  | unbounded => "unbounded"
  | unsolved => "unsolved"
  | undefined => "undefined"

/-- The status of a word. -/
def Status.ofName? (word : Text) : Option Status :=
  [optimal, infeasible, unbounded, unsolved, undefined].find? fun s =>
    Text.ofString s.name = word

/-- A status and one value for each name. -/
structure Solution where
  status : Status
  values : List (Text × Float)
deriving DecidableEq, Repr

end LinearProgram
