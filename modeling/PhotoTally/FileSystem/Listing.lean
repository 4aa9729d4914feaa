import PhotoTally.FileSystem.Basic
import Std.Data.TreeSet

/-!
# The order of a folder

The order in which a folder lists its names is neither their age nor the alphabet: folders are kept
as trees sorted by a hash of the names, and are read along the tree.  The hash is MD4 with half the
words and half the steps, started from its usual four words.

`mem_listed` says that a listing has the same names, `pairwise_listed` that it has each of them
once.
-/

namespace PhotoTally

/-! ## The hash of a name -/

namespace NameHash

/-- What the words of a name are mixed into. -/
structure Digest where
  a : UInt32
  b : UInt32
  c : UInt32
  d : UInt32

/-- The digest before the first word. -/
def start : Digest := ⟨0x67452301, 0xEFCDAB89, 0x98BADCFE, 0x10325476⟩

/-- The bits of `x` moved up by `k` places, those at the top to the bottom. -/
def rotate (x k : UInt32) : UInt32 := x <<< k ||| x >>> (32 - k)

/-- A round: how three words are combined, what is added to each word of the name, the order in
which these words are taken, and by how much the result is turned each time. -/
structure Round where
  combine : UInt32 → UInt32 → UInt32 → UInt32
  summand : UInt32
  order : List Nat
  turns : List UInt32

/-- The three rounds.  The first chooses between two words by the third, the second takes the
majority, the third the parity. -/
def rounds : List Round := [
  ⟨fun x y z => z ^^^ (x &&& (y ^^^ z)), 0, [0, 1, 2, 3, 4, 5, 6, 7], [3, 7, 11, 19]⟩,
  ⟨fun x y z => (x &&& y) + ((x ^^^ y) &&& z), 0x5A827999, [1, 3, 5, 7, 0, 2, 4, 6], [3, 5, 9, 13]⟩,
  ⟨fun x y z => x ^^^ y ^^^ z, 0x6ED9EBA1, [3, 7, 2, 6, 1, 5, 0, 4], [3, 9, 11, 15]⟩]

/-- Mixes one word in.  The four words of the digest take turns. -/
def Round.step (r : Round) (g : Digest) (word turn : UInt32) : Digest :=
  ⟨g.d, rotate (g.a + r.combine g.b g.c g.d + (word + r.summand)) turn, g.b, g.c⟩

/-- Mixes all eight words in. -/
def Round.run (r : Round) (words : List UInt32) (g : Digest) : Digest :=
  (r.order.zip (r.turns ++ r.turns)).foldl (fun g (i, turn) => r.step g (words.getD i 0) turn) g

/-- Mixes a block of eight words into a digest. -/
def mix (g : Digest) (words : List UInt32) : Digest :=
  let h := rounds.foldl (fun h r => r.run words h) g
  ⟨g.a + h.a, g.b + h.b, g.c + h.c, g.d + h.d⟩

/-- A byte as a number from -128 to 127. -/
def signed (b : UInt8) : UInt32 := b.toInt8.toInt32.toUInt32

/-- The word of up to four bytes.  Where bytes are missing the length of what is left of the name
shows through. -/
def word (length : Nat) (bytes : List UInt8) : UInt32 :=
  bytes.foldl (fun w b => (w <<< 8) + signed b) (length.toUInt32 * 0x01010101)

/-- The eight words of the first 32 bytes of what is left of a name. -/
def block (bytes : List UInt8) : List UInt32 :=
  (List.range 8).map fun i => word bytes.length ((bytes.drop (4 * i)).take 4)

/-- The digest of a name, of which 32 bytes at a time are mixed in. -/
def digest (bytes : List UInt8) : Digest :=
  (List.range ((bytes.length + 31) / 32)).foldl
    (fun g k => mix g (block (bytes.drop (32 * k)))) start

/-- The hash of a name: a word of the digest, of which the last bit does not count, and one more to
tell names apart whose first words are equal. -/
def ofBytes (bytes : List UInt8) : Nat :=
  let g := digest bytes
  ((g.b.toNat / 2) <<< 32) + g.c.toNat

end NameHash

/-! ## The listing -/

namespace EntryName

/-- The order of a folder: by the hash, and by the names themselves if their hashes agree. -/
def listingOrder : EntryName → EntryName → Ordering :=
  compareLex (compareOn fun n => NameHash.ofBytes n.bytes) compare

instance : Std.TransCmp listingOrder := inferInstanceAs (Std.TransCmp (compareLex _ _))

instance : Std.LawfulEqCmp listingOrder where
  eq_of_compare h := Std.LawfulEqOrd.eq_of_compare (compareLex_eq_eq.1 h).2

/-- The names in the order in which a folder lists them. -/
def listed (names : List EntryName) : List EntryName :=
  (Std.TreeSet.ofList names listingOrder).toList

@[simp] theorem mem_listed {n : EntryName} {names : List EntryName} :
    n ∈ listed names ↔ n ∈ names := by
  simp [listed]

theorem pairwise_listed (names : List EntryName) :
    (listed names).Pairwise fun a b => listingOrder a b = .lt :=
  Std.TreeSet.ordered_toList

end EntryName

end PhotoTally
