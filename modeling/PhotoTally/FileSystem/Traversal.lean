import PhotoTally.FileSystem.Resolve

/-!
# Going through a folder

A traversal visits the entries below a folder down to a given depth, following links.  An entry
that cannot be visited does not end the traversal; it takes the entry's place in the result.  A
link back to a folder that the traversal is in is such an entry, and so is a link to a folder that
may not be read, also where the traversal would not have gone on.
-/

namespace PhotoTally

/-- Why an entry could not be visited.  The fault of a folder behind a link that could not be
opened does not tell the path. -/
inductive WalkFault where
  | io (path : Path) (cause : IoFault)
  | unopened (cause : IoFault)
  | loop (path ancestor : Path)
  deriving DecidableEq

namespace WalkFault

def message : WalkFault → String
  | io path cause => "IO error for operation on " ++ path.display ++ ": " ++ cause.message
  | unopened cause => cause.message
  | loop path ancestor =>
    "File system loop found: " ++ path.display ++ " points to an ancestor " ++ ancestor.display

/-- Whether the entry leads to nothing. -/
def isMissing : WalkFault → Bool
  | io _ cause => cause = .os .notFound
  | unopened cause => cause = .os .notFound
  | loop _ _ => false

end WalkFault

/-- What an entry is after following links. -/
inductive Kind where
  | folder
  | file
  | other
  deriving DecidableEq

def Node.kind : Node → Kind
  | .folder _ => .folder
  | .file _ _ => .file
  | _ => .other

/-- An entry that has been visited. -/
structure Entry where
  path : Path
  name : EntryName
  kind : Kind
  deriving DecidableEq

/-- What a traversal has for an entry. -/
abbrev Visit := Except WalkFault Entry

namespace FileSystem

/-- The folders that a traversal is in, innermost first. -/
abbrev Trail := List (Path × Spot)

/-- Whether the folder behind a link can be entered: it must grant the reading, and not be one that
the traversal is in. -/
def checkLinked (trail : Trail) (path : Path) (target : Spot) (folder : Node) :
    Except WalkFault Unit :=
  if !folder.mode.grants .read then .error (.unopened (.os .denied))
  else match trail.find? (·.2 = target) with
    | some (ancestor, _) => .error (.loop path ancestor)
    | none => .ok ()

/-- Visits the entry `name` of the folder `here`. -/
def visit (fs : FileSystem) (trail : Trail) (path : Path) (here : Spot) (name : EntryName) :
    Visit :=
  match fs.entry? here name with
  | some (.link _) =>
    match fs.stat path with
    | .error e => .error (.io path e)
    | .ok (target, n) =>
      match (if n.isFolder then checkLinked trail path target n else .ok ()) with
      | .error f => .error f
      | .ok () => .ok ⟨path, name, n.kind⟩
  | some n => .ok ⟨path, name, n.kind⟩
  | none => .error (.io path (.os .notFound))

/-- Visits everything below the folder at `path`, down to `depth` levels.  The entries of a folder
are taken in ascending order, rearranged by `arrange`. -/
def visitsBelow (fs : FileSystem) (arrange : List EntryName → List EntryName) :
    Nat → Trail → Path → List Visit
  | 0, _, _ => []
  | depth + 1, trail, path =>
    match fs.readFolder path with
    | .error e => [.error (.io path e)]
    | .ok (here, names) =>
      let trail := (path, here) :: trail
      (arrange names).flatMap fun name =>
        let child := path.join ⟨name.bytes⟩
        match fs.visit trail child here name with
        | .error f => [.error f]
        | .ok entry =>
          .ok entry ::
            if entry.kind = .folder then visitsBelow fs arrange depth trail child else []

/-- Visits everything below `root`, down to `depth` levels.  Below a plain file there is nothing; a
root that leads nowhere is an error. -/
def traverse (fs : FileSystem) (arrange : List EntryName → List EntryName) (depth : Nat)
    (root : Path) : Except WalkFault (List Visit) :=
  match fs.stat root with
  | .error e => .error (.io root e)
  | .ok (spot, n) =>
    if !n.isFolder then .ok []
    else match (if fs.pathIsLink root then checkLinked [] root spot n else .ok ()) with
      | .error f => .error f
      | .ok () => .ok (fs.visitsBelow arrange depth [] root)

end FileSystem

end PhotoTally
