import PhotoTally.Text.Quoted
import PhotoTally.Text.Split

/-!
# Paths

A path is a byte string with `/` between its parts.  The operations here read the spelling only;
what a path leads to is a matter of the file system.
-/

namespace PhotoTally

/-- A path as it is spelt. -/
structure Path where
  bytes : List UInt8
  deriving DecidableEq, Inhabited

namespace Path

/-- The byte `/`. -/
def slash : UInt8 := 47

/-- The byte `.`. -/
def dot : UInt8 := 46

def ofString (s : String) : Path := ⟨Text.bytes s⟩

/-- The path as text, with U+FFFD for what is not UTF-8. -/
def display (p : Path) : String := Text.display p.bytes

/-- The path in quotes. -/
def quoted (p : Path) : String := Text.quotedBytes p.bytes

def isAbsolute (p : Path) : Bool := p.bytes.head? == some slash

/-- `q` seen from `p`: an absolute `q` stands for itself. -/
def join (p q : Path) : Path :=
  if q.isAbsolute then q
  else if p.bytes = [] || p.bytes.getLast? == some slash then ⟨p.bytes ++ q.bytes⟩
  else ⟨p.bytes ++ slash :: q.bytes⟩

/-- The path without the slashes at its end. -/
def unslashed (p : Path) : Path := ⟨(p.bytes.reverse.dropWhile (· = slash)).reverse⟩

/-! ## Parts -/

/-- The stretches between slashes. -/
def segments (p : Path) : List (List UInt8) := Text.splitAll slash p.bytes

/-- A segment that names nothing: empty, or a single dot. -/
def isIdle (segment : List UInt8) : Bool := segment = [] || segment = [dot]

/-- The list without the idle segments at its end. -/
def dropIdle (segments : List (List UInt8)) : List (List UInt8) :=
  (segments.reverse.dropWhile isIdle).reverse

/-- The last part of a path, unless the path is empty or ends in `..`. -/
def fileName? (p : Path) : Option (List UInt8) :=
  match (dropIdle p.segments).getLast? with
  | some name => if name = [dot, dot] then none else some name
  | none => none

/-- A file name without its last extension.  A dot at the start begins no extension. -/
def stemOf (name : List UInt8) : List UInt8 :=
  match Text.splitLast dot name with
  | some (before, _) => if before = [] || name = [dot, dot] then name else before
  | none => name

/-- The file name without its last extension. -/
def stem? (p : Path) : Option (List UInt8) := p.fileName?.map stemOf

/-- The part of the spelling that comes before the segments a parent is cut from: the root's
slash, or a dot that begins the path. -/
def head (p : Path) : List UInt8 :=
  if p.isAbsolute then [slash]
  else if p.segments.head? = some [dot] then [dot]
  else []

/-- The path of the folder that holds the path's last part, `.` if the spelling names none. -/
def folder (p : Path) : Path :=
  let body := dropIdle (Text.splitAll slash (p.bytes.drop p.head.length))
  let parent := p.head ++ Text.joinAll slash (dropIdle body.dropLast)
  if body = [] || parent = [] then ⟨[dot]⟩ else ⟨parent⟩

end Path

end PhotoTally
