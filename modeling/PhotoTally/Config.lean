import PhotoTally.Outcome
import PhotoTally.Report.Format

/-!
# Configuration

A configuration names the roots of the raw files and of the pictures, the ledger file, and the
report file with its format.  `Config.validate` accepts it if both roots lead to folders and the
report's variable, if there is one, is an identifier; it spells the roots canonically.
-/

namespace PhotoTally

/-- What a run needs to know. -/
structure Config where
  source : Path
  dest : Path
  ledger : Path
  output : Path
  format : OutputFormat
  deriving DecidableEq, Inhabited

namespace Config

def defaultLedger : Path := .ofString "counts.json"

def defaultOutput : Path := .ofString "photo_data.js"

def defaultVariable : String := "data"

/-- A character that may begin an identifier. -/
def isIdentifierStart (c : Char) : Bool := c.isAlpha || c = '_' || c = '$'

/-- A character that may go on in an identifier. -/
def isIdentifierRest (c : Char) : Bool := isIdentifierStart c || c.isDigit

/-- Whether a name is an identifier of ASCII letters, digits, `_` and `$`, with no digit first. -/
def isIdentifier (name : String) : Bool :=
  match name.toList with
  | [] => false
  | c :: rest => isIdentifierStart c && rest.all isIdentifierRest

/-- The canonical path of a root, which must lead to a folder. -/
def canonicalRoot (fs : FileSystem) (root : Path) : Except Failure Path :=
  if !fs.pathExists root then .error (.rootMissing root)
  else if !fs.pathIsFolder root then .error (.rootNotFolder root)
  else (fs.canonical root).mapError fun e => .io root (.os e)

/-- Refuses a format whose variable is no identifier. -/
def checkFormat : OutputFormat → Except Failure Unit
  | .script varName => if isIdentifier varName then .ok () else .error (.badVariable varName)
  | .json => .ok ()

/-- The configuration with canonical roots, if everything in it is in order. -/
def validate (fs : FileSystem) (c : Config) : Except Failure Config := do
  let source ← canonicalRoot fs c.source
  let dest ← canonicalRoot fs c.dest
  checkFormat c.format
  return { c with source, dest }

end Config

end PhotoTally
