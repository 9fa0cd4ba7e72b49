import LinearProgram.Log
import LinearProgram.Text.Numeral
import LinearProgram.Text.Quoted
import LinearProgram.Text.Uppercase
/-!
# Settings

The program is set up by environment variables: the command of the solver, and for
the server its port, whether it reloads itself, and the least level that is logged.
-/
namespace LinearProgram

/-- The values of environment variables. -/
abbrev Environment := String → Option Text

/-- The command of the solver as the environment gives it. -/
def solverCommand (env : Environment) : Text :=
  (env "CBC_PATH").getD "cbc"

/-- The command that a run uses: the one asked for, unless it is absent or empty. -/
def chosenCommand (asked? : Option Text) (env : Environment) : Text :=
  match asked? with
  | some command => if command.isEmpty then solverCommand env else command
  | none => solverCommand env

/-- How the server is started. -/
structure ServerSettings where
  host : String
  port : Int
  reload : Bool
  level : Level
deriving DecidableEq, Repr

/-- Why the server cannot be started. -/
inductive SettingsFault where
  | badPort (text : Text) (fault : Text.IntegerFault)
  | unknownLevel (word : Text)
deriving DecidableEq, Repr

/-- The most characters of a text that a message about it quotes. -/
def mostQuoted : Nat := 200

/-- The words for a fault. -/
def SettingsFault.message : SettingsFault → Text
  | badPort text .malformed =>
    "invalid literal for int() with base 10: " ++ (Text.quoted text).take mostQuoted
  | badPort _ (.tooManyDigits count) => Text.tooManyDigitsMessage count
  | unknownLevel word => "Unknown level: " ++ Text.quoted word

/-- The words for the levels. -/
def levelWords : List (String × Level) :=
  [("CRITICAL", .critical), ("FATAL", .critical), ("ERROR", .error), ("WARN", .warning),
    ("WARNING", .warning), ("INFO", .info), ("DEBUG", .debug), ("NOTSET", .notSet)]

/-- The level of a word, in any case. -/
def readLevel (text : Text) : Except SettingsFault Level :=
  let word := Text.upper text
  match levelWords.find? (fun l => Text.ofString l.1 = word) with
  | some l => .ok l.2
  | none => .error (.unknownLevel word)

/-- The port of a text; the server listens on 8000 if none is given. -/
def readPort : Option Text → Except SettingsFault Int
  | none => .ok 8000
  | some text => (Text.readInteger text.chars).mapError (.badPort text)

/-- The settings of the server; the port is read before the level. -/
def serverSettings (env : Environment) : Except SettingsFault ServerSettings := do
  let port ← readPort (env "PORT")
  let level ← readLevel ((env "LOG_LEVEL").getD "INFO")
  return {
    host := "0.0.0.0"
    port := port
    reload := ((env "RELOAD").getD "false").chars.map Char.toLower = "true".toList
    level := level }

end LinearProgram
