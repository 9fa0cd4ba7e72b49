import LinearProgram.Model
import LinearProgram.Number.Text
/-!
# Validation

`Model.violations` lists everything that keeps a model from being well formed, in
the order model name, variables by first occurrence, constraints.  A name or a
label is refused from its second holder on; the first one keeps it.
-/
namespace LinearProgram

/-- A rule that a model breaks, with the element that breaks it. -/
inductive Violation (R : Type) where
  | emptyVariableName (v : Variable R)
  | invalidVariableName (v : Variable R)
  | invalidVariableBounds (v : Variable R)
  | invalidModelName (name : Text)
  | duplicateVariableName (v : Variable R)
  | duplicateConstraintName (position : Nat) (label : Text)
deriving DecidableEq, Repr

/-- The characters that no variable name may hold: the file format and the
command line of the solver use them. -/
def reservedCharacters : List Char :=
  [' ', '+', '-', '/', '>', '[', ']']

variable {R : Type}

/-- Whether the name holds a reserved character. -/
def Variable.hasReservedCharacter (v : Variable R) : Bool :=
  v.name.any (CodePoint.isIn reservedCharacters.contains)

variable [Scalar R]

/-- Whether the lower bound is above the upper one. -/
def Variable.boundsCross (v : Variable R) : Bool :=
  match v.minimum?, v.maximum? with
  | some lo, some hi => hi.less lo
  | _, _ => false

/-- Whether the bounds are impossible, or not those of the binary domain. -/
def Variable.hasInvalidBounds (v : Variable R) : Bool :=
  v.boundsCross || (v.domain = .binary && !v.hasUnitBounds)

/-- The violations of a variable taken alone: its name, then its bounds. -/
def Variable.violations (v : Variable R) : List (Violation R) :=
  (if v.name.isEmpty then [.emptyVariableName v]
    else if v.hasReservedCharacter then [.invalidVariableName v] else []) ++
    (if v.hasInvalidBounds then [.invalidVariableBounds v] else [])

/-- The violations of variables in order; `taken` holds the names met before. -/
def variableViolations (taken : List Text) : List (Variable R) → List (Violation R)
  | [] => []
  | v :: vs =>
    v.violations ++
      (if v.name.isEmpty then variableViolations taken vs
        else if taken.contains v.name then
          .duplicateVariableName v :: variableViolations taken vs
        else variableViolations (v.name :: taken) vs)

/-- The violations of labels in order; `taken` holds the labels met before. -/
def labelViolations (taken : List Text) (position : Nat) :
    List (Option Text) → List (Violation R)
  | [] => []
  | none :: ls => labelViolations taken (position + 1) ls
  | some l :: ls =>
    if l.isEmpty then labelViolations taken (position + 1) ls
    else if taken.contains l then
      .duplicateConstraintName position l :: labelViolations taken (position + 1) ls
    else labelViolations (l :: taken) (position + 1) ls

/-- Every violation of a model; none means that it can be handed to a solver. -/
def Model.violations [DecidableEq R] (m : Model R) : List (Violation R) :=
  (if m.name.contains (.char ' ') then [.invalidModelName m.name] else []) ++
    variableViolations [] m.vars ++
    labelViolations [] 0 (m.constraints.map (·.label?))

/-- Whether the model can be handed to a solver. -/
def Model.isValid [DecidableEq R] (m : Model R) : Bool :=
  m.violations.isEmpty

/-! ## Reports -/

/-- The rules that a model keeps. -/
inductive Rule where
  | emptyVariableName
  | invalidVariableName
  | invalidVariableBounds
  | invalidModelName
  | duplicateVariableName
  | duplicateConstraintName
deriving DecidableEq, Repr

namespace Rule

/-- The word for a rule that is broken. -/
def name : Rule → String
  | emptyVariableName => "empty_variable_name"
  | invalidVariableName => "invalid_variable_name"
  | invalidVariableBounds => "invalid_variable_bounds"
  | invalidModelName => "invalid_model_name"
  | duplicateVariableName => "duplicate_variable_name"
  | duplicateConstraintName => "duplicate_constraint_name"

/-- The sentence for a rule that is broken by the element with a name; `range` says which
domain and bounds a variable has. -/
def sentence (name range : Text) : Rule → Text
  | emptyVariableName => "Variable has an empty name."
  | invalidVariableName =>
    "Variable name '" ++ name ++ "' contains one of [' ', '+', '-', '/', '>', '[', ']']."
  | invalidVariableBounds => "Variable '" ++ name ++ "' " ++ range ++ "."
  | invalidModelName => "Model name '" ++ name ++ "' must not contain spaces."
  | duplicateVariableName => "Distinct variables share the name '" ++ name ++ "'."
  | duplicateConstraintName => "Distinct constraints share the name '" ++ name ++ "'."

/-- The words for a domain and bounds that do not fit. -/
def rangeText (d : Domain) (lo hi : Text) : Text :=
  "(domain=" ++ d.name ++ ") has invalid bounds [" ++ lo ++ ", " ++ hi ++ "]"

end Rule

namespace Violation

/-- The rule that is broken. -/
def rule : Violation R → Rule
  | emptyVariableName _ => .emptyVariableName
  | invalidVariableName _ => .invalidVariableName
  | invalidVariableBounds _ => .invalidVariableBounds
  | invalidModelName _ => .invalidModelName
  | duplicateVariableName _ => .duplicateVariableName
  | duplicateConstraintName _ _ => .duplicateConstraintName

/-- The word for the broken rule. -/
def kind (v : Violation R) : String :=
  v.rule.name

/-- The variable that breaks the rule, if it is one. -/
def holder? : Violation R → Option (Variable R)
  | emptyVariableName v | invalidVariableName v | invalidVariableBounds v
  | duplicateVariableName v => some v
  | invalidModelName _ | duplicateConstraintName _ _ => none

/-- The label that is used twice, if that is the rule. -/
def label? : Violation R → Option Text
  | duplicateConstraintName _ l => some l
  | _ => none

/-- The name of the element that breaks the rule. -/
def subjectName : Violation R → Text
  | emptyVariableName v | invalidVariableName v | invalidVariableBounds v
  | duplicateVariableName v => v.name
  | invalidModelName name => name
  | duplicateConstraintName _ l => l

/-- The domain and the bounds of the variable that breaks the rule. -/
def range (v : Violation Float) : Text :=
  v.holder?.elim [] fun x =>
    Rule.rangeText x.domain (Number.textOrNone x.minimum?) (Number.textOrNone x.maximum?)

/-- The sentence that reports the violation. -/
def message (v : Violation Float) : Text :=
  v.rule.sentence v.subjectName v.range

end Violation

end LinearProgram
