import PhotoTally.Program

/-!
# The command

This is the only module that talks to the system.  It copies what a command line can touch into a
`FileSystem`, lets `Program.run` work on the copy, where no disk is full, and then writes the files
that came out different.  Names and arguments are taken as text.  Permission bits stay out of the
copy: every folder has `755` and every file `644`.
-/

namespace PhotoTally.Shell

/-! ## Copying into a file system -/

/-- The place that a path leads to through all links, if it leads anywhere. -/
def realPlace? (p : Path) : IO (Option Place) := do
  try
    let real ← IO.FS.realPath p.display
    return some (Path.ofString real.toString).place
  catch _ => return none

/-- What stands at a place, if anything does. -/
def typeAt? (place : Place) : IO (Option IO.FS.FileType) := do
  try
    let found ← (System.mkFilePath [place.path.display]).symlinkMetadata
    return some found.type
  catch _ => return none

/-- The names in a folder. -/
def namesIn (place : Place) : IO (List EntryName) := do
  let entries ← (System.mkFilePath [place.path.display]).readDir
  return entries.toList.filterMap fun e => (Step.ofSegment (Text.bytes e.fileName)).name?

/-- The file system with the folders that lead to `place`. -/
def withFolders (fs : FileSystem) : Place → FileSystem
  | [] => fs
  | n :: parent => (withFolders fs parent).put (n :: parent) (.folder Mode.plainFolder)

/-- Copies a link at `place`, if there is one, and tells the place that it leads to.  A link that
leads nowhere is copied with an empty target, which leads nowhere too. -/
def copyLink (fs : FileSystem) (place : Place) : IO (FileSystem × Place) := do
  if let some .symlink ← typeAt? place then
    match ← realPlace? place.path with
    | some target =>
      return ((withFolders fs target.tail).put place (.link target.path), target)
    | none => return (fs.put place (.link ⟨[]⟩), place)
  else return (fs, place)

/-- Copies what stands at `place`, through a link.  `below` copies what a folder holds, `contents`
says whether files are copied with what they hold. -/
def copyWith (below : FileSystem → Place → IO FileSystem) (contents : Bool) (fs : FileSystem)
    (place : Place) : IO FileSystem := do
  let (fs, place) ← copyLink fs place
  match ← typeAt? place with
  | some .dir => below (fs.put place (.folder Mode.plainFolder)) place
  | some .file =>
    let held ← if contents then IO.FS.readBinFile place.path.display else pure .empty
    return fs.put place (.file Mode.plainFile held)
  | some .other => return fs.put place (.pipe Mode.plainFile)
  | _ => return fs

/-- Copies what stands at `place`, and below it down to `depth` levels. -/
def copy (contents : Bool) : Nat → FileSystem → Place → IO FileSystem
  | 0 => copyWith (fun fs _ => pure fs) contents
  | depth + 1 =>
    copyWith
      (fun fs place => do
        (← namesIn place).foldlM (fun fs name => copy contents depth fs (name :: place)) fs)
      contents

/-- Copies what the last name of a path names. -/
def copyLast (contents : Bool) (fs : FileSystem) (p : Path) : IO FileSystem := do
  match p.steps.getLast?.bind Step.name?, ← realPlace? p.folder with
  | some name, some parent => copy contents 0 (withFolders fs parent) (name :: parent)
  | _, _ => return fs

/-- Copies everything on the way of a path, and what it leads to down to `depth` levels. -/
def copyPath (contents : Bool) (depth : Nat) (fs : FileSystem) (p : Path) : IO FileSystem := do
  let fs ← (FileSystem.wayTo p).foldlM (copyLast contents) fs
  match ← realPlace? p with
  | some place => copy contents depth (withFolders fs place.tail) place
  | none => return fs

/-- The levels below a root that can matter: years, albums, and two levels of photos. -/
def rootDepth : Nat := 4

/-- The part of the system's files that a command line can touch. -/
def snapshot (i : Invocation) : IO FileSystem := do
  let here ← IO.currentDir
  let bare := FileSystem.bare (Path.ofString here.toString).place
  match i.command with
  | .run c _ =>
    let fs ← [c.source, c.dest].foldlM (copyPath false rootDepth) bare
    [c.ledger, c.output, Program.logPath].foldlM (copyPath true 0) fs
  | .status ledger => [ledger, Program.logPath].foldlM (copyPath true 0) bare

/-! ## Writing back -/

/-- The first name for a temporary file that is free in the folder. -/
def freeName? (folder : Place) : IO (Option Place) :=
  (List.range AtomicWrite.attempts).findSomeM? fun k => do
    let temp := AtomicWrite.temporaryPlace folder k
    return if (← typeAt? temp).isNone then some temp else none

/-- Puts a file with the given contents at a place, in one step. -/
def replaceFile (place : Place) (contents : ByteArray) : IO Unit := do
  match ← freeName? place.tail with
  | none => throw (IO.userError IoFault.noFreeName.message)
  | some temp =>
    IO.FS.writeBinFile temp.path.display contents
    IO.FS.rename temp.path.display place.path.display

/-- Writes the files that are not what they were. -/
def writeBack (before after : FileSystem) : IO Unit :=
  after.nodes.toList.forM fun (place, n) => do
    if before.find? place ≠ some n then
      if let .file _ contents := n then replaceFile place contents

/-! ## The command line -/

/-- How the command is used. -/
def usage : String :=
  "Usage: editcount run --source-dir DIR --dest-dir DIR [--ledger FILE] [--output FILE]\n" ++
  "                     [--var-name NAME | --json] [--dry-run] [--log [--log-level LEVEL]]\n" ++
  "       editcount status [--ledger FILE] [--log [--log-level LEVEL]]\n"

/-- What is said to a refused command line. -/
def refusalText : CommandLine.Refusal → String
  | .help | .nothingGiven => usage
  | .version => "editcount 0.1.0\n"
  | .commandMissing => "error: a command is required\n\n" ++ usage
  | .commandUnknown => "error: no such command\n\n" ++ usage
  | .argumentUnknown => "error: unexpected argument\n\n" ++ usage
  | .argumentMissing => "error: a required argument was not given\n\n" ++ usage
  | .valueMissing => "error: an option lacks its value\n\n" ++ usage
  | .valueUnwanted => "error: an option takes no value\n\n" ++ usage
  | .valueInvalid => "error: invalid value\n\n" ++ usage
  | .valueNotText => "error: a value is not UTF-8\n\n" ++ usage
  | .conflict => "error: arguments that exclude each other, or one given twice\n\n" ++ usage

/-- The environment's say, as text. -/
def environment : IO Environment := do
  let source ← IO.getEnv "PHOTO_SOURCE_DIR"
  let dest ← IO.getEnv "PHOTO_DEST_DIR"
  return ⟨source.map Text.bytes, dest.map Text.bytes⟩

end PhotoTally.Shell

open PhotoTally in
/-- Carries out a command line and tells the exit code. -/
def main (args : List String) : IO UInt32 := do
  match CommandLine.parse (← Shell.environment) (args.map Text.bytes) with
  | .error refusal =>
    if refusal.exitCode = 0 then IO.print (Shell.refusalText refusal)
    else IO.eprint (Shell.refusalText refusal)
    return refusal.exitCode.toUInt32
  | .ok i =>
    let before ← Shell.snapshot i
    let ending := Program.run before i Run.noFaults
    Shell.writeBack before ending.files
    IO.print ending.output
    IO.eprint ending.errors
    return ending.exitCode.toUInt32
