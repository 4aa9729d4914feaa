import PhotoTally.FileSystem.Traversal
import PhotoTally.Json.Fault

/-!
# Why a command fails

Each failure has one line of text and a chain of causes below it.  Failures of the configuration
are told apart from those of the work itself.
-/

namespace PhotoTally

/-- Why a command fails. -/
inductive Failure where
  | rootMissing (path : Path)
  | rootNotFolder (path : Path)
  | badVariable (name : String)
  | io (path : Path) (cause : IoFault)
  | walk (cause : WalkFault)
  | badLedger (path : Path) (cause : Json.Fault)
  | replace (path : Path) (cause : IoFault)
  deriving DecidableEq

namespace Failure

/-- Whether the failure is one of the configuration. -/
def isConfiguration : Failure → Bool
  | rootMissing _ | rootNotFolder _ | badVariable _ => true
  | _ => false

/-- The text of a file that could not be put in another's place. -/
def replaceMessage (cause : IoFault) : String :=
  "failed to persist temporary file: " ++ cause.message

def message : Failure → String
  | rootMissing path => "Path not found: " ++ path.display
  | rootNotFolder path => "Not a directory: " ++ path.display
  | badVariable name => "Argument error: '" ++ name ++ "' is not a valid JavaScript variable name"
  | io path cause => "I/O error at " ++ path.display ++ ": " ++ cause.message
  | walk cause => "Directory walker error: " ++ cause.message
  | badLedger path cause => "Malformed ledger " ++ path.display ++ ": " ++ cause.message
  | replace path cause => "Failed to persist " ++ path.display ++ ": " ++ replaceMessage cause

/-- The causes below a failure, the nearest first. -/
def causes : Failure → List String
  | rootMissing _ | rootNotFolder _ | badVariable _ => []
  | io _ cause => [cause.message]
  | walk cause =>
    match cause with
    | .io _ deeper | .unopened deeper => [cause.message, deeper.message]
    | .loop _ _ => [cause.message]
  | badLedger _ cause => [cause.message]
  | replace _ cause => [replaceMessage cause, cause.message]

end Failure

end PhotoTally
