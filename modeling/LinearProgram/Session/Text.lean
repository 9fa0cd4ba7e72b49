import LinearProgram.Number.Text
import LinearProgram.Session.Value
/-!
# The texts of values

Every value of a session can be written out in full.  Writing a function needs its
factors as reals with six digits, so it fails for an integer that is too large and for a
factor that is no number.
-/
namespace LinearProgram.Session

open LinearProgram.Text (quoted)

/-- A text, or why there is none. -/
abbrev Written := Except Fault Text

/-- The class of a choice with its member and its text. -/
def Word.full (w : Word) : Text :=
  "<" ++ w.className ++ "." ++ w.member ++ ": '" ++ w.text ++ "'>"

/-- The class of a choice with its member. -/
def Word.path (w : Word) : Text :=
  w.className ++ "." ++ w.member

/-- A number with six digits. -/
def brief (k : Number Float) : Written :=
  match k.brief? with
  | some s => .ok s
  | none => .error .overflow

/-- A factor with six digits. -/
def Value.brief : Value → Written
  | .number _ k => Session.brief k
  | .text _ _ | .word _ => .error .textAsNumber
  | _ => .error .unsupported

/-- Texts in round brackets; a single one is followed by a comma. -/
def tupleText : List Text → Text
  | [t] => "(" ++ t ++ ",)"
  | ts => "(" ++ Text.join ", " ts ++ ")"

/-- Texts under keys in braces. -/
def recordText (keys items : List Text) : Text :=
  "\x7b" ++ Text.join ", " ((keys.zip items).map fun p => quoted p.1 ++ ": " ++ p.2) ++ "\x7d"

mutual

/-- A value in full. -/
def Value.full : Value → Written
  | .nothing => .ok "None"
  | .text _ t => .ok (quoted t)
  | .number _ k => .ok k.text
  | .word w => .ok w.full
  | .list _ items => do return "[" ++ Text.join ", " (← fullItems items) ++ "]"
  | .tuple _ items => do return tupleText (← fullItems items)
  | .record _ keys items => do return recordText keys (← fullItems items)
  | .variable _ name d _ _ => do
    return "Variable(" ++ (← name.full) ++ ", domain=" ++ d.name ++ ")"
  | .term _ x factor => do
    return "Term(variable=" ++ (← x.full) ++ ", factor=" ++ (← factor.full) ++ ")"
  | .function _ _ terms constant => do
    let ts ← termTexts terms
    let c ← brief (.real constant.value)
    return "LinearFunction([" ++ Text.join ", " ts ++ "], constant=" ++ c ++ ")"
  | .constraint _ f r c => do
    return "LinearConstraint(function=" ++ (← f.full) ++ ", comparison=" ++
      (Word.comparison r).full ++ ", constant=" ++ Decimal.shortestText c.value ++ ")"
  | .objective _ f o => do
    return "Objective(function=" ++ (← f.full) ++ ", optimization=" ++
      (Word.optimization o).full ++ ")"
  | .model _ name objective constraints => do
    return "Model(name=" ++ (← name.full) ++ ", objective=" ++ (← objective.full) ++
      ", constraints=" ++ (← constraints.full) ++ ")"

/-- The values of a list. -/
def fullItems : List Value → Except Fault (List Text)
  | [] => .ok []
  | v :: vs => do return (← v.full) :: (← fullItems vs)

/-- The terms of a function: factors with six digits, and names. -/
def termTexts : List Value → Except Fault (List Text)
  | [] => .ok []
  | .term _ x factor :: ts => do
    let k ← factor.brief
    let name ← nameText x
    return (k ++ "*" ++ name) :: (← termTexts ts)
  | v :: _ => .error (v.without "factor")

/-- The name of a value: a text as it is, other values in full. -/
def nameText : Value → Written
  | .variable _ name _ _ _ | .model _ name _ _ =>
    match name with
    | .text _ t => .ok t
    | .word w => .ok w.path
    | _ => name.full
  | .word w => .ok w.member
  | v => .error (v.without "name")

end

/-- A value as it stands in a sentence: a text as it is, other values in full. -/
def Value.display : Value → Written
  | .text _ t => .ok t
  | .word w => .ok w.path
  | v => v.full

end LinearProgram.Session
