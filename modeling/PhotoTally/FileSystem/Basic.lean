import PhotoTally.FileSystem.Mode
import PhotoTally.Path
import Std.Data.ExtTreeMap

/-!
# File systems

A file system is a finite map from places to nodes.  A place is the list of names that lead to it
from the root, innermost first, so that a folder's entries are the places one name longer.  There
is one path of names to each node, and links are nodes of their own.

`put` and `erase` change one place; `find?_put` and `find?_erase` say so, and `erase_put` says that
a place which was free can be given back without a trace.
-/

namespace PhotoTally

/-! ## Names and places -/

/-- What can be the name of an entry: not empty, at most 255 bytes, without a slash or a zero byte,
and neither `.` nor `..`. -/
def IsEntryName (bs : List UInt8) : Prop :=
  bs ≠ [] ∧ bs.length ≤ 255 ∧ Path.slash ∉ bs ∧ 0 ∉ bs ∧ bs ≠ [Path.dot] ∧
    bs ≠ [Path.dot, Path.dot]

instance (bs : List UInt8) : Decidable (IsEntryName bs) := by unfold IsEntryName; infer_instance

/-- The name of an entry of a folder. -/
structure EntryName where
  bytes : List UInt8
  valid : IsEntryName bytes
  deriving DecidableEq

/-- The name as text, if it is UTF-8. -/
def EntryName.text? (n : EntryName) : Option String := Text.ofBytes? n.bytes

/-- Names are ordered as their bytes are. -/
instance : Ord EntryName := ⟨compareOn EntryName.bytes⟩

instance : Std.TransOrd EntryName := inferInstanceAs (Std.TransCmp (compareOn EntryName.bytes))

instance : Std.LawfulEqOrd EntryName where
  eq_of_compare {a b} h := by
    obtain ⟨bs, hbs⟩ := a
    obtain ⟨cs, hcs⟩ := b
    have : bs = cs := Std.LawfulEqOrd.eq_of_compare h
    simp [this]

/-- The names that lead to a node from the root, innermost first. -/
abbrev Place := List EntryName

/-- Places are ordered by their depth first, which tells most of them apart without a look at the
names. -/
def Place.order : Place → Place → Ordering := compareLex (compareOn List.length) compare

instance : Std.TransCmp Place.order := inferInstanceAs (Std.TransCmp (compareLex _ _))

instance : Std.LawfulEqCmp Place.order where
  eq_of_compare h := Std.LawfulEqOrd.eq_of_compare (compareLex_eq_eq.1 h).2

/-- The path of a place, from the root. -/
def Place.path (p : Place) : Path :=
  ⟨Path.slash :: Text.joinAll Path.slash (p.reverse.map (·.bytes))⟩

/-! ## Nodes -/

/-- The contents of files are compared byte by byte. -/
local instance decidableEqContents : DecidableEq ByteArray := ByteArray.instDecidableEq

/-- What stands at a place. -/
inductive Node where
  | folder (mode : Mode)
  | file (mode : Mode) (contents : ByteArray)
  | link (target : Path)
  | pipe (mode : Mode)
  deriving DecidableEq

namespace Node

def isFolder : Node → Bool
  | folder _ => true
  | _ => false

def isLink : Node → Bool
  | link _ => true
  | _ => false

/-- The permission bits; a link has all. -/
def mode : Node → Mode
  | folder m => m
  | file m _ => m
  | link _ => 0o777
  | pipe m => m

/-- The node with other permission bits. -/
def withMode (m : Mode) : Node → Node
  | folder _ => folder m
  | file _ contents => file m contents
  | link target => link target
  | pipe _ => pipe m

end Node

/-! ## File systems -/

/-- The nodes by place, and the folder that relative paths start from.  That folder may have been
removed: it is then without entries, cannot be given any, and only the way up leads out of it. -/
structure FileSystem where
  nodes : Std.ExtTreeMap Place Node Place.order
  /-- Where the working folder is, or was when it was removed. -/
  workFolder : Place
  workRemoved : Bool

namespace FileSystem

/-- File systems are equal if they list the same nodes. -/
instance : DecidableEq FileSystem := fun a b =>
  decidable_of_iff (a.nodes.toList = b.nodes.toList ∧ a.workFolder = b.workFolder ∧
      a.workRemoved = b.workRemoved) <| by
    cases a; cases b
    simp [Std.ExtTreeMap.toList_inj]

/-- The node at a place.  The root is a folder. -/
def find? (fs : FileSystem) (p : Place) : Option Node :=
  if p = [] then some (.folder Mode.plainFolder) else fs.nodes[p]?

def isFolder (fs : FileSystem) (p : Place) : Bool := (fs.find? p).any Node.isFolder

/-- Whether there is a node at `p` that grants a right. -/
def grants (fs : FileSystem) (p : Place) (r : Right) : Bool :=
  (fs.find? p).any fun n => n.mode.grants r

/-- The name of an entry of the folder at `p`, if the place is one. -/
def entryOf? (p : Place) : Place → Option EntryName
  | n :: parent => if parent = p then some n else none
  | [] => none

/-- The names in the folder at `p`, ascending. -/
def children (fs : FileSystem) (p : Place) : List EntryName := fs.nodes.keys.filterMap (entryOf? p)

theorem mem_children {fs : FileSystem} {p : Place} {n : EntryName} :
    n ∈ fs.children p ↔ (fs.find? (n :: p)).isSome := by
  have hentry : ∀ q, entryOf? p q = some n ↔ q = n :: p := by
    intro q
    cases q with
    | nil => simp [entryOf?]
    | cons m parent => by_cases h : parent = p <;> simp [entryOf?, h]
  simp [children, find?, hentry]

theorem pairwise_children (fs : FileSystem) (p : Place) :
    (fs.children p).Pairwise fun m n => compare m n = .lt := by
  refine List.Pairwise.filterMap _ ?_ fs.nodes.ordered_keys
  intro q r hqr m hm n hn
  cases q with
  | nil => simp [entryOf?] at hm
  | cons m' parent =>
    cases r with
    | nil => simp [entryOf?] at hn
    | cons n' parent' =>
      simp only [entryOf?, Option.ite_none_right_eq_some, Option.some.injEq] at hm hn
      obtain ⟨rfl, rfl⟩ := hm
      obtain ⟨rfl, rfl⟩ := hn
      simpa [Place.order, compareLex, compareOn, List.compare_cons_cons] using hqr

/-! ## Change of one place -/

/-- The file system with `n` at `p`. -/
def put (fs : FileSystem) (p : Place) (n : Node) : FileSystem :=
  { fs with nodes := fs.nodes.insert p n }

/-- The file system with nothing at `p`. -/
def erase (fs : FileSystem) (p : Place) : FileSystem := { fs with nodes := fs.nodes.erase p }

@[simp] theorem workFolder_put (fs : FileSystem) (p : Place) (n : Node) :
    (fs.put p n).workFolder = fs.workFolder := rfl

@[simp] theorem workFolder_erase (fs : FileSystem) (p : Place) :
    (fs.erase p).workFolder = fs.workFolder := rfl

theorem find?_put (fs : FileSystem) {p : Place} (hp : p ≠ []) (q : Place) (n : Node) :
    (fs.put p n).find? q = if q = p then some n else fs.find? q := by
  by_cases hq : q = []
  · simp [find?, hq, Ne.symm hp]
  · simp [find?, put, hq, Std.ExtTreeMap.getElem?_insert, @eq_comm _ q p]

theorem find?_erase (fs : FileSystem) {p : Place} (hp : p ≠ []) (q : Place) :
    (fs.erase p).find? q = if q = p then none else fs.find? q := by
  by_cases hq : q = []
  · simp [find?, hq, Ne.symm hp]
  · simp [find?, erase, hq, Std.ExtTreeMap.getElem?_erase, @eq_comm _ q p]

/-- A place that was free is given back without a trace. -/
theorem erase_put {fs : FileSystem} {p : Place} (h : fs.find? p = none) (n : Node) :
    (fs.put p n).erase p = fs := by
  have hp : p ≠ [] := by
    rintro rfl
    simp [find?] at h
  have hfree : fs.nodes[p]? = none := by simpa [find?, hp] using h
  have : (fs.nodes.insert p n).erase p = fs.nodes := by
    apply Std.ExtTreeMap.ext_getElem?
    intro q
    by_cases hq : p = q
    · subst hq; simp [hfree]
    · simp [Std.ExtTreeMap.getElem?_erase, Std.ExtTreeMap.getElem?_insert, hq]
  simp [put, erase, this]

/-- Of two writes to one place the second counts. -/
@[simp] theorem put_put (fs : FileSystem) (p : Place) (m n : Node) :
    (fs.put p m).put p n = fs.put p n := by
  have : (fs.nodes.insert p m).insert p n = fs.nodes.insert p n := by
    apply Std.ExtTreeMap.ext_getElem?
    intro q
    by_cases hq : p = q <;> simp [Std.ExtTreeMap.getElem?_insert, hq]
  simp [put, this]

end FileSystem

end PhotoTally
