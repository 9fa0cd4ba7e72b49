import LinearProgram.Session.Action
/-!
# Sessions

A session runs steps one after another.  A step takes values, written out or kept
under names by earlier steps, makes a value of them and may keep it under a name.
A step that fails keeps nothing.
-/
namespace LinearProgram.Session

/-- An action, and the name under which its value is kept. -/
structure Step where
  action : Action
  keepAs? : Option Text

/-- What a session has kept, and the numbers of the next variable and object. -/
structure State where
  store : Store
  nextVariable : Nat
  nextObject : Nat

/-- A session at its start. -/
def State.initial : State := ⟨[], 0, 0⟩

/-- One step: its value or its fault, and the session after it. -/
def State.step (st : State) (s : Step) : Except Fault Value × State :=
  match (s.action.run st.store st.nextVariable).run st.nextObject with
  | .error e => (.error e, st)
  | .ok (v, next) =>
    (.ok v,
      { store := (s.keepAs?.map (·, v)).toList ++ st.store
        nextVariable := st.nextVariable + (if s.action.makesVariable then 1 else 0)
        nextObject := next })

/-- The values or faults of steps, run one after another. -/
def State.runAll (st : State) : List Step → List (Except Fault Value)
  | [] => []
  | s :: ss =>
    let r := st.step s
    r.1 :: r.2.runAll ss

/-- The values or faults of the steps of a session. -/
def run (steps : List Step) : List (Except Fault Value) :=
  State.initial.runAll steps

end LinearProgram.Session
