import PhotoTally.FileSystem.Listing
import PhotoTally.NameSet
import PhotoTally.Outcome
import PhotoTally.Photo

/-!
# Scans

What a run reads from the folders: the subfolders of a folder, which are the years and the albums,
and the base names of the files of an album.  Entries that lead to nothing are passed over, and so
are entries whose names are not text; anything else that cannot be visited ends the scan.
Subfolders are visited in ascending order, files as their folder lists them.
-/

namespace PhotoTally.Scan

/-! ## Subfolders -/

/-- The names of the folders among the visits, in their order. -/
def foldersOf : List Visit → Outcome (List String)
  | [] => pure []
  | .error f :: rest =>
    if f.isMissing then do
      .note (.danglingSkipped f)
      foldersOf rest
    else .fail (.walk f)
  | .ok e :: rest =>
    if e.kind ≠ .folder then foldersOf rest
    else match e.name.text? with
      | none => do
        .note (.folderNameSkipped e.path)
        foldersOf rest
      | some name => do
        let names ← foldersOf rest
        return name :: names

/-- The names of the subfolders of `folder`, ascending.  Each of them is a year or an album. -/
def subfolders (fs : FileSystem) (folder : Path) : Outcome (List String) :=
  match fs.traverse id 1 folder with
  | .error f => .fail (.walk f)
  | .ok visits => foldersOf visits

/-! ## Files of an album -/

/-- The base names of the accepted files among the visits, added to `names`. -/
def filesOf (accept : String → Bool) : List Visit → NameSet → Outcome NameSet
  | [], names => pure names
  | .error f :: rest, names =>
    if f.isMissing then do
      .note (.vanishedSkipped f)
      filesOf accept rest names
    else .fail (.walk f)
  | .ok e :: rest, names =>
    if e.kind ≠ .file then filesOf accept rest names
    else match e.name.text? with
      | none => do
        .note (.fileNameSkipped e.path)
        filesOf accept rest names
      | some name =>
        if !accept name then filesOf accept rest names
        else match Photo.baseName? e.path with
          | some base => filesOf accept rest (names.insert base)
          | none => filesOf accept rest names

/-- The base names of the accepted files down to `depth` levels below an album's folder.  A folder
that the path does not lead to counts as empty. -/
def files (fs : FileSystem) (depth : Nat) (accept : String → Bool) (folder : Path) :
    Outcome NameSet :=
  if !fs.pathExists folder then do
    .note (.folderMissing folder)
    return .empty
  else if !fs.pathIsFolder folder then .fail (.io folder .notAlbumFolder)
  else match fs.traverse EntryName.listed depth folder with
    | .error f => filesOf accept [.error f] .empty
    | .ok visits => filesOf accept visits .empty

/-- The base names of the raw files directly in an album's folder. -/
def raws (fs : FileSystem) (folder : Path) : Outcome NameSet := files fs 1 Photo.isRaw folder

/-- The base names of all files in an album's folder of pictures and in its subfolders. -/
def edits (fs : FileSystem) (folder : Path) : Outcome NameSet := files fs 2 (fun _ => true) folder

end PhotoTally.Scan
