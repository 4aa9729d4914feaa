import PhotoTally.CommandLine.Parser
import PhotoTally.FileSystem.Edit
import PhotoTally.Report.Summary
import PhotoTally.Run

/-!
# The program

From a command line and a file system to what is printed, the exit code, and the file system
afterwards.  Warnings go to the output before anything else does; a failure goes to the error
output with its causes.  On request all events up to a level also go to a log file, which is opened
before any work is done.
-/

namespace PhotoTally.Program

/-- What the program leaves behind. -/
structure Ending where
  exitCode : Nat
  output : String
  errors : String
  files : FileSystem

/-! ## Failures in print -/

/-- A cause, indented; lines after its first are indented to the same column. -/
def indented (number : Option Nat) (cause : String) : List Char :=
  let lead := match number with
    | some n => Text.padStart 5 (Nat.toDigits 10 n) ++ [':', ' ']
    | none => List.replicate 4 ' '
  match Text.splitAll '\n' cause.toList with
  | [] => lead
  | first :: rest =>
    lead ++ first ++ rest.flatMap fun line => '\n' :: List.replicate lead.length ' ' ++ line

/-- A failure with its chain of causes; they are numbered if there is more than one. -/
def errorText (message : String) (causes : List String) : String :=
  let numbered := causes.zipIdx.map fun (cause, k) =>
    indented (if causes.length = 1 then none else some k) cause
  let chain := if causes = [] then []
    else "\n\nCaused by:".toList ++ numbered.flatMap fun cause => '\n' :: cause
  String.ofList ("Error: ".toList ++ message.toList ++ chain ++ ['\n'])

/-- The failure of a command.  One of the configuration is announced as such. -/
def failureText (f : Failure) : String :=
  if f.isConfiguration then errorText "Invalid configuration" (f.message :: f.causes)
  else errorText f.message f.causes

/-! ## Events in print -/

/-- The line of an event. -/
def eventLine (e : Event) : String := "[" ++ e.level.name ++ "] " ++ e.text ++ "\n"

/-- The lines of the events that are at least as urgent as `threshold`. -/
def eventLines (threshold : Option Level) (events : List Event) : String :=
  match threshold with
  | none => ""
  | some level =>
    String.join ((events.filter fun e => e.level.rank ≤ level.rank).map eventLine)

/-! ## Commands -/

/-- What a successful run prints. -/
def runText (c : Config) (dry : Bool) (r : Report) : String :=
  if dry then "DRY RUN - nothing written\n\n" ++ r.summary
  else r.summary ++ "\nReport written to " ++ c.output.display ++ "\nLedger written to " ++
    c.ledger.display ++ "\n"

/-- The line of an album in the listing of a ledger. -/
def statusLine (album : String) (names : List String) : List Char :=
  [' ', ' '] ++ Text.padEnd 32 album.toList ++ ' ' ::
    Text.padStart 6 (Nat.toDigits 10 names.length) ++ " files".toList

/-- The lines of a year in the listing of a ledger. -/
def statusYear (year : String) (albums : YearRecord) : List (List Char) :=
  year.toList :: albums.entries.map fun (album, names) => statusLine album names

/-- The listing of a ledger. -/
def statusText (path : Path) (l : Ledger) : String :=
  if l.isEmpty then "Ledger " ++ path.display ++ " is empty\n"
  else
    let lines := ("Ledger: ".toList ++ path.display.toList) :: Text.rule ::
      l.years.entries.flatMap (fun (year, albums) => statusYear year albums) ++
      [Text.rule,
        "Total: ".toList ++ Nat.toDigits 10 l.albumCount ++ " albums, ".toList ++
          Nat.toDigits 10 l.fileCount ++ " files".toList]
    String.ofList (lines.flatMap fun line => line ++ ['\n'])

/-- Carries out a command.  The outcome holds what it prints. -/
def carryOut (fs : FileSystem) (faults : Run.Faults) : Command → FileSystem × Outcome String
  | .run config dry =>
    match config.validate fs with
    | .error f => (fs, .fail f)
    | .ok c =>
      let (fs, outcome) := Run.execute fs c dry faults
      (fs, runText c dry <$> outcome)
  | .status ledger => (fs, statusText ledger <$> Ledger.load fs ledger)

/-! ## The log file -/

/-- The log file, in the working folder. -/
def logPath : Path := .ofString "editcount.log"

/-- Adds lines to the log that was opened, empty, at `place`.  A file that was put in its place
since is never empty; the log is then gone, and the lines with it. -/
def appendLog (fs : FileSystem) (place : Place) (lines : String) : FileSystem :=
  match fs.find? place with
  | some (.file _ contents) => if contents.isEmpty then fs.append place lines.toUTF8 else fs
  | _ => fs

/-! ## The whole program -/

/-- What is left behind when the command is carried out. -/
def conclude (fs : FileSystem) (outcome : Outcome String) : Ending :=
  let warnings := eventLines (some .warn) outcome.events
  match outcome.result with
  | .ok text => ⟨0, warnings ++ text, "", fs⟩
  | .error f => ⟨1, warnings, failureText f, fs⟩

/-- Carries out a command line. -/
def run (fs : FileSystem) (i : Invocation) (faults : Run.Faults) : Ending :=
  if i.log then
    match fs.openEmpty logPath with
    | .error e => ⟨1, "", errorText e.message [], fs⟩
    | .ok (fs, place) =>
      let (fs, outcome) := carryOut fs faults i.command
      conclude (appendLog fs place (eventLines i.threshold outcome.events)) outcome
  else
    let (fs, outcome) := carryOut fs faults i.command
    conclude fs outcome

/-- The program from its arguments on.  A refused command line has no further effect. -/
def invoke (fs : FileSystem) (env : Environment) (args : List Argument) (faults : Run.Faults) :
    Except CommandLine.Refusal Ending :=
  (CommandLine.parse env args).map fun i => run fs i faults

end PhotoTally.Program
