import PhotoTally.FileSystem.Traversal

/-!
# Making and removing entries

The plain operations by which a tree of folders comes about: making folders, files, links and
pipes, changing permission bits, moving, removing, and listing what there is.  Each of them fails
without a change.
-/

namespace PhotoTally.FileSystem

/-- A file system with nothing but the working folder and the folders above it. -/
def bare (workFolder : Place) : FileSystem :=
  (List.range workFolder.length).foldr
    (fun above fs => fs.put (workFolder.drop above) (.folder Mode.plainFolder))
    ⟨∅, workFolder, false⟩

/-! ## Making -/

/-- Whether entries of the folder that holds a place may be made, replaced and removed. -/
def mayChange (fs : FileSystem) (p : Place) : Bool :=
  fs.grants p.tail .search && fs.grants p.tail .write

/-- The free place that a path names for a new entry. -/
def freshPlace (fs : FileSystem) (p : Path) : Except IoFault Place :=
  match fs.resolve .fresh p with
  | .error e => .error e
  | .ok none => .error (.os .alreadyExists)
  | .ok (some place) =>
    if (fs.find? place).isSome then .error (.os .alreadyExists)
    else if !fs.mayChange place then .error (.os .denied)
    else .ok place

/-- Makes a new entry. -/
def make (fs : FileSystem) (p : Path) (n : Node) : Except IoFault FileSystem :=
  (fs.freshPlace p).map fun place => fs.put place n

def makeLink (fs : FileSystem) (p target : Path) : Except IoFault FileSystem :=
  if target.bytes = [] then .error (.os .notFound) else fs.make p (.link target)

def makePipe (fs : FileSystem) (p : Path) : Except IoFault FileSystem :=
  fs.make p (.pipe Mode.plainFile)

/-- Opens the file that a path leads to for writing, empty.  A missing file is made, also behind a
link. -/
def openEmpty (fs : FileSystem) (p : Path) : Except IoFault (FileSystem × Place) :=
  match fs.resolve .opened p with
  | .error e => .error e
  | .ok none => .error (.os .isFolder)
  | .ok (some place) =>
    match fs.find? place with
    | none =>
      if !fs.mayChange place then .error (.os .denied)
      else .ok (fs.put place (.file Mode.plainFile .empty), place)
    | some (.folder _) => .error (.os .isFolder)
    | some (.file mode _) =>
      if !mode.grants .write then .error (.os .denied)
      else .ok (fs.put place (.file mode.afterWrite .empty), place)
    | some n => if !n.mode.grants .write then .error (.os .denied) else .ok (fs, place)

/-- Adds bytes to the file at a place. -/
def append (fs : FileSystem) (place : Place) (bytes : ByteArray) : FileSystem :=
  match fs.find? place with
  | some (.file mode contents) => fs.put place (.file mode (contents ++ bytes))
  | _ => fs

/-- Writes a file as a whole, in the place of what it held. -/
def writeFile (fs : FileSystem) (p : Path) (contents : ByteArray) : Except IoFault FileSystem :=
  (fs.openEmpty p).map fun (fs, place) => fs.append place contents

/-- The spellings of the folders on the way to a path, the nearest to the start first, and the path
itself. -/
def wayTo (p : Path) : List Path :=
  let spelt (k : Nat) : Path := ⟨Text.joinAll Path.slash (p.segments.take (k + 1))⟩
  ((List.range p.segments.length).map spelt).filter fun q => q.bytes ≠ []

/-- Takes one step from a folder, and makes the folder that it names if there is nothing. -/
def stepMaking (fs : FileSystem) (here : Place) (step : Step) :
    Except OsError (FileSystem × Place) :=
  match fs.walk .target linkLimit here [step] with
  | .ok place => if fs.isFolder place then .ok (fs, place) else .error .notFolder
  | .error e =>
    match step.name? with
    | none => .error e
    | some n =>
      if (fs.find? (n :: here)).isSome then .error e
      else if !fs.mayChange (n :: here) then .error .denied
      else
        let mode := (fs.find? here).elim 0 Node.mode
        .ok (fs.put (n :: here) (.folder mode.subfolder), n :: here)

/-- Makes the folder that a path names, and those on the way to it. -/
def makeFolders (fs : FileSystem) (p : Path) : Except IoFault FileSystem :=
  if 0 ∈ p.bytes then .error .zeroByte
  else if pathLimit ≤ p.bytes.length then .error (.os .nameTooLong)
  else match fs.start p.isAbsolute p.steps with
    | .error e => .error (.os e)
    | .ok none => .ok fs
    | .ok (some (here, steps)) =>
      let made : Except OsError (FileSystem × Place) :=
        steps.foldlM (fun (fs, here) step => stepMaking fs here step) (fs, here)
      (made.map (·.1)).mapError .os

/-- Makes the folder that is to hold a path. -/
def makeParent (fs : FileSystem) (p : Path) : Except IoFault FileSystem := fs.makeFolders p.folder

/-! ## Changing -/

/-- Sets the permission bits of what a path leads to. -/
def setMode (fs : FileSystem) (p : Path) (mode : Mode) : Except IoFault FileSystem :=
  (fs.stat p).map fun (spot, n) =>
    match spot with
    | some place => fs.put place (n.withMode mode)
    | none => fs

/-- Takes away what stands at a place and everything below it. -/
def eraseAll (fs : FileSystem) (p : Place) : FileSystem :=
  { fs with
    nodes := fs.nodes.filter fun q _ => !p.isSuffixOf q
    workRemoved := fs.workRemoved || p.isSuffixOf fs.workFolder }

/-- Removes what a path names, a folder with everything in it. -/
def remove (fs : FileSystem) (p : Path) : Except IoFault FileSystem :=
  match fs.lstat p with
  | .error e => .error e
  | .ok (none, _) => .error (.os .invalid)
  | .ok (some place, _) =>
    if !fs.mayChange place then .error (.os .denied) else .ok (fs.eraseAll place)

/-- The place that a place gets when `source`, which it is or is below, becomes `target`. -/
def movedPlace (source target place : Place) : Place :=
  place.take (place.length - source.length) ++ target

/-- Moves the node at a place, with everything below it, to another place. -/
def moveAll (fs : FileSystem) (source target : Place) : FileSystem :=
  let moved := fs.nodes.toList.filter fun e => source.isSuffixOf e.1
  let rest := (fs.eraseAll source).eraseAll target
  let taken := moved.foldl (fun fs e => fs.put (movedPlace source target e.1) e.2) rest
  if !fs.workRemoved && source.isSuffixOf fs.workFolder then
    { taken with workFolder := movedPlace source target fs.workFolder, workRemoved := false }
  else taken

/-- Moves what a path names, with everything below it, to another name.  What is there may be
replaced, a folder only if it is empty and only by a folder.  Slashes may follow the name of a
folder. -/
def move (fs : FileSystem) (p q : Path) : Except IoFault FileSystem :=
  match fs.lstat p.unslashed, fs.resolve .fresh q.unslashed with
  | .error e, _ => .error e
  | _, .error e => .error e
  | .ok (some source, n), .ok (some target) =>
    if !n.isFolder && (p ≠ p.unslashed || q ≠ q.unslashed) then .error (.os .notFolder)
    else if source = target then .ok fs
    else if source.isSuffixOf target then .error (.os .invalid)
    else if !fs.mayChange source || !fs.mayChange target then .error (.os .denied)
    else
      let there := fs.find? target
      if there.isSome && n.isFolder && !fs.isFolder target then .error (.os .notFolder)
      else if !n.isFolder && fs.isFolder target then .error (.os .isFolder)
      else if fs.isFolder target && fs.children target ≠ [] then .error (.os .notEmpty)
      else if n.isFolder && source.tail ≠ target.tail && !n.mode.grants .write then
        .error (.os .denied)
      else .ok (fs.moveAll source target)
  | _, _ => .error (.os .busy)

/-! ## Listing -/

/-- The line for a node, whose names lead to it from the working folder. -/
def line (names : List (List UInt8)) (n : Node) : String :=
  let shown := (Path.mk (Text.joinAll Path.slash names)).display
  match n with
  | .folder _ => "dir " ++ shown
  | .file mode _ => "file " ++ mode.octal ++ " " ++ shown
  | .link target => "link " ++ shown ++ " -> " ++ target.display
  | .pipe _ => "other " ++ shown

/-- The names that lead to each node below the working folder, and the node. -/
def below (fs : FileSystem) : List (List (List UInt8) × Node) :=
  if fs.workRemoved then []
  else fs.nodes.toList.filterMap fun (place, n) =>
    if place ≠ fs.workFolder && fs.workFolder.isSuffixOf place then
      some (((place.take (place.length - fs.workFolder.length)).reverse).map (·.bytes), n)
    else none

/-- One line for each node below the working folder, every folder before what it holds, names
ascending. -/
def tree (fs : FileSystem) : List String :=
  (fs.below.mergeSort fun a b => decide (a.1 ≤ b.1)).map fun (names, n) => line names n

end PhotoTally.FileSystem
