import LinearProgram.Text
/-!
# What is logged

Every event that is logged is a case of `Event`; its level, the component that
reports it and its text follow from the case.
-/
namespace LinearProgram

/-- Why the system refuses something. -/
inductive SystemFault where
  | notFound
  | isDirectory
  | notPermitted
  | notExecutable
  | notRemovable
  | notDirectory
  | notUtf8
deriving DecidableEq, Repr

/-- How grave an event is; `notSet` is below every event. -/
inductive Level where
  | notSet
  | debug
  | info
  | warning
  | error
  | critical
deriving DecidableEq, Repr

/-- The word for a level. -/
def Level.name : Level → String
  | notSet => "NOTSET"
  | debug => "DEBUG"
  | info => "INFO"
  | warning => "WARNING"
  | error => "ERROR"
  | critical => "CRITICAL"

/-- The component that reports an event. -/
inductive Component where
  | modelFile
  | solutionFile
  | cbc
  | inProcess
deriving DecidableEq, Repr

/-- An event worth logging. -/
inductive Event where
  | folderNotCreated (fault : SystemFault)
  | folderNotRemoved (folder : Text) (fault : SystemFault)
  | modelFileNotWritten (path : Text) (fault : SystemFault)
  | running (command : List Text)
  | notLaunched (program : Text) (fault : SystemFault)
  | exited (status : Int) (complaint : Text)
  | solutionFileNotRead (path : Text) (fault : SystemFault)
  | backendNotCreated (backend : String)
deriving DecidableEq, Repr

namespace Event

/-- The level of an event. -/
def level : Event → Level
  | running _ => .debug
  | folderNotRemoved _ _ => .warning
  | _ => .error

/-- The component that reports an event. -/
def component : Event → Component
  | modelFileNotWritten _ _ => .modelFile
  | solutionFileNotRead _ _ => .solutionFile
  | backendNotCreated _ => .inProcess
  | _ => .cbc

/-- The text of an event; `describe` gives the system's words for a fault. -/
def text (describe : SystemFault → String) : Event → Text
  | folderNotCreated fault => "Could not create temporary folder: " ++ describe fault
  | folderNotRemoved folder fault =>
    "Could not remove temporary folder " ++ folder ++ ": " ++ describe fault
  | modelFileNotWritten path fault =>
    "Could not write MPS file " ++ path ++ ": " ++ describe fault
  | running command => "Running " ++ Text.join " " command
  | notLaunched program fault =>
    "Could not launch CBC (" ++ program ++ "): " ++ describe fault
  | exited status complaint =>
    "CBC exited with status: " ++ toString status ++ " " ++ complaint
  | solutionFileNotRead path fault =>
    "Error reading solution file " ++ path ++ ": " ++ describe fault
  | backendNotCreated backend => "Failed to create OR-Tools " ++ backend ++ " solver."

end Event

end LinearProgram
