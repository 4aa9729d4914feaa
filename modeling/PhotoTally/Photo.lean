import PhotoTally.Path
import PhotoTally.Text.LowerCase

/-!
# Photo files

Raw files are told by their extension.  A photo goes by its base name, the file name without the
last extension, so that a raw file and the pictures made from it share one name.
-/

namespace PhotoTally.Photo

/-- The extensions of raw files, in lower case. -/
def rawExtensions : List (List Char) := ["nef".toList, "cr2".toList, "dng".toList]

/-- Whether a file name ends in one of the raw extensions, in any mix of cases. -/
def isRaw (name : String) : Bool :=
  match Text.splitLast '.' name.toList with
  | some (_, extension) => rawExtensions.contains (Text.lowerCase extension)
  | none => false

/-- The base name of the file a path leads to, if there is one and it is text. -/
def baseName? (p : Path) : Option String := p.stem?.bind Text.ofBytes?

end PhotoTally.Photo
