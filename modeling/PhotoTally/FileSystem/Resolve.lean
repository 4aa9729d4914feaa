import PhotoTally.FileSystem.Basic
import PhotoTally.FileSystem.Fault

/-!
# Where a path leads

A path is followed step by step from the root or, if it is relative, from the working folder.  Each
folder that a name is looked up in has to grant the search.  A link is replaced by its target, at
most forty times in one path.  The last link may be left as it is, and the last name may be missing
where an entry is to be made.  Where a file is to be made if it is missing, no slash may follow the
last name.

The canonical path of a place is found name by name, each of them looked up by its path from the
root.  So a path on the way can be too long though the one that was given is short.
-/

namespace PhotoTally

/-! ## Steps -/

/-- What one segment of a path asks for.  A gap is the nothing between two slashes, or after the
last one. -/
inductive Step where
  | gap
  | stay
  | up
  | down (n : EntryName)
  | refused (e : OsError)
  deriving DecidableEq

/-- The step of a segment. -/
def Step.ofSegment (s : List UInt8) : Step :=
  if s = [] then .gap
  else if s = [Path.dot] then .stay
  else if s = [Path.dot, Path.dot] then .up
  else if h : IsEntryName s then .down ⟨s, h⟩
  else if 255 < s.length then .refused .nameTooLong
  else .refused .notFound

def Path.steps (p : Path) : List Step := p.segments.map Step.ofSegment

/-- The name that a step goes down to. -/
def Step.name? : Step → Option EntryName
  | down n => some n
  | _ => none

/-- Whether a step is spelt with a name, be it one that no entry can have. -/
def Step.isNamed : Step → Bool
  | down _ => true
  | refused _ => true
  | _ => false

/-- Whether a step stays where it is. -/
def Step.isIdle : Step → Bool
  | gap => true
  | stay => true
  | _ => false

/-- The place that a path from the root leads to if there are no links on the way. -/
def Path.place (p : Path) : Place := (p.steps.filterMap Step.name?).reverse

/-- The number of links that one path may go through. -/
def linkLimit : Nat := 40

/-- The length from which on a path is refused. -/
def pathLimit : Nat := 4096

/-- Whether the path of a place, with `more` bytes behind it, is too long. -/
def Place.isFar (p : Place) (more : Nat) : Bool := pathLimit ≤ p.path.bytes.length + more

/-- Where a path leads: to a place, or to the working folder after it was removed, which then has
none. -/
abbrev Spot := Option Place

/-! ## Ways to follow a path -/

/-- How a path is followed. -/
structure Manner where
  /-- Whether a link at the last name is followed. -/
  follow : Bool
  /-- Whether nothing need be at the last name. -/
  free : Bool
  /-- Whether each name is looked up by its path from the root. -/
  spelt : Bool

namespace Manner

/-- To what a path leads to, through all links. -/
def target : Manner := ⟨true, false, false⟩

/-- To what a path names, which may be a link. -/
def entry : Manner := ⟨false, false, false⟩

/-- To where an entry can be made. -/
def fresh : Manner := ⟨false, true, false⟩

/-- To a file that is made if it is missing, also behind a link. -/
def opened : Manner := ⟨true, true, false⟩

/-- To what a path leads to, for its canonical path. -/
def canonical : Manner := ⟨true, false, true⟩

/-- Whether slashes follow a last name that is to be a file: a link there is followed, and a
missing file is made. -/
def isSlashed (manner : Manner) (step : Step) (rest : List Step) : Bool :=
  manner.follow && manner.free && step.isNamed && !rest.isEmpty && rest.all (· = .gap)

end Manner

/-- Whether the steps behind a name ask for a folder there before another name is looked up. -/
def asksFolder (rest : List Step) : Bool :=
  !rest.isEmpty && (rest.find? fun s => !s.isIdle).all (· = .up)

namespace FileSystem

/-! ## Walking a path -/

/-- Follows steps up to the first link; `onLink` goes on from there.  Only a folder can be stayed
in, and only one that grants the search can be gone through. -/
def walkPlain (fs : FileSystem) (manner : Manner)
    (onLink : Place → Path → List Step → Except OsError Place) :
    Place → List Step → Except OsError Place
  | here, [] => .ok here
  | here, step :: rest =>
    match fs.find? here with
    | some (.folder mode) =>
      if step ≠ .gap && !mode.grants .search then .error .denied
      else if manner.isSlashed step rest then .error .isFolder
      else match step with
        | .gap | .stay => walkPlain fs manner onLink here rest
        | .up => walkPlain fs manner onLink here.tail rest
        | .refused e => .error e
        | .down n =>
          if manner.spelt && Place.isFar (n :: here) 0 then .error .nameTooLong
          else match fs.find? (n :: here) with
            | none => if manner.free && rest.isEmpty then .ok (n :: here) else .error .notFound
            | some (.link target) =>
              if rest.isEmpty && !manner.follow then .ok (n :: here) else onLink here target rest
            | some _ =>
              if manner.spelt && asksFolder rest && Place.isFar (n :: here) 1 then
                .error .nameTooLong
              else walkPlain fs manner onLink (n :: here) rest
    | _ => .error .notFolder

/-- Follows steps, going through at most the given number of links. -/
def walk (fs : FileSystem) (manner : Manner) : Nat → Place → List Step → Except OsError Place
  | 0 => walkPlain fs manner fun _ _ _ => .error .tooManyLinks
  | links + 1 =>
    walkPlain fs manner fun here target rest =>
      if target.bytes = [] then .error .notFound
      else walk fs manner links (if target.isAbsolute then [] else here) (target.steps ++ rest)

/-- Where the steps of a path begin, and those that are left from there.  It is nowhere if they stay
in a removed working folder. -/
def start (fs : FileSystem) (fromRoot : Bool) (steps : List Step) :
    Except OsError (Option (Place × List Step)) :=
  if fromRoot then .ok (some ([], steps))
  else if !fs.workRemoved then .ok (some (fs.workFolder, steps))
  else match steps.dropWhile Step.isIdle with
    | [] => .ok none
    | .up :: rest => .ok (some (fs.workFolder.tail, rest))
    | _ => .error .notFound

/-- Follows the steps of a path, from the root or from the working folder. -/
def follow (fs : FileSystem) (manner : Manner) (fromRoot : Bool) (steps : List Step) :
    Except OsError Spot :=
  match fs.start fromRoot steps with
  | .error e => .error e
  | .ok none => .ok none
  | .ok (some (here, steps)) => (fs.walk manner linkLimit here steps).map some

/-- Where a path leads. -/
def resolve (fs : FileSystem) (manner : Manner) (p : Path) : Except IoFault Spot :=
  if 0 ∈ p.bytes then .error .zeroByte
  else if p.bytes = [] then .error (.os .notFound)
  else if pathLimit ≤ p.bytes.length then .error (.os .nameTooLong)
  else (fs.follow manner p.isAbsolute p.steps).mapError .os

/-! ## Looking -/

/-- The node at a spot. -/
def nodeAt? (fs : FileSystem) : Spot → Option Node
  | some place => fs.find? place
  | none => some (.folder Mode.plainFolder)

/-- The names in the folder at a spot. -/
def namesIn (fs : FileSystem) : Spot → List EntryName
  | some place => fs.children place
  | none => []

/-- The entry with a given name of the folder at a spot. -/
def entry? (fs : FileSystem) (folder : Spot) (name : EntryName) : Option Node :=
  folder.bind fun place => fs.find? (name :: place)

/-- The node that a path leads to, and where it is. -/
def look (fs : FileSystem) (manner : Manner) (p : Path) : Except IoFault (Spot × Node) :=
  match fs.resolve manner p with
  | .error e => .error e
  | .ok spot =>
    match fs.nodeAt? spot with
    | some n => .ok (spot, n)
    | none => .error (.os .notFound)

/-- The node that a path leads to through all links. -/
def stat (fs : FileSystem) (p : Path) : Except IoFault (Spot × Node) := fs.look .target p

/-- The node that a path names, which may be a link. -/
def lstat (fs : FileSystem) (p : Path) : Except IoFault (Spot × Node) := fs.look .entry p

/-- Whether a path leads anywhere; a path that cannot be followed does not. -/
def pathExists (fs : FileSystem) (p : Path) : Bool := (fs.stat p).toOption.isSome

/-- Whether a path leads to a folder. -/
def pathIsFolder (fs : FileSystem) (p : Path) : Bool :=
  (fs.stat p).toOption.any fun (_, n) => n.isFolder

/-- Whether a path names a link. -/
def pathIsLink (fs : FileSystem) (p : Path) : Bool :=
  (fs.lstat p).toOption.any fun (_, n) => n.isLink

/-- A path spelt from the root.  A removed working folder has no path. -/
def absolute (fs : FileSystem) (p : Path) : Except OsError Path :=
  if p.isAbsolute then .ok p
  else if fs.workRemoved then .error .notFound
  else .ok (fs.workFolder.path.join p)

/-- The path of the place that a path leads to: absolute, and without links. -/
def canonical (fs : FileSystem) (p : Path) : Except OsError Path :=
  match fs.absolute p with
  | .error e => .error e
  | .ok spelt => (fs.walk .canonical linkLimit [] spelt.steps).map Place.path

/-- The folder that a path leads to, and the names in it. -/
def readFolder (fs : FileSystem) (p : Path) : Except IoFault (Spot × List EntryName) :=
  match fs.stat p with
  | .error e => .error e
  | .ok (spot, n) =>
    if !n.isFolder then .error (.os .notFolder)
    else if !n.mode.grants .read then .error (.os .denied)
    else .ok (spot, fs.namesIn spot)

/-- The bytes of the file that a path leads to.  A pipe has none. -/
def readBytes (fs : FileSystem) (p : Path) : Except IoFault ByteArray :=
  match fs.stat p with
  | .error e => .error e
  | .ok (_, n) =>
    if !n.mode.grants .read then .error (.os .denied)
    else match n with
      | .file _ contents => .ok contents
      | .folder _ => .error (.os .isFolder)
      | _ => .ok .empty

/-- The text of the file that a path leads to. -/
def readText (fs : FileSystem) (p : Path) : Except IoFault String :=
  match fs.readBytes p with
  | .error e => .error e
  | .ok contents =>
    match String.fromUTF8? contents with
    | some text => .ok text
    | none => .error .notText

end FileSystem

end PhotoTally
