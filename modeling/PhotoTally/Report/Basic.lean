import PhotoTally.NameSet

/-!
# Counts and reports

An album is counted by going through the names recorded for it: a name without a raw file is
deleted, and one whose raw file has an edited picture is edited.  A report lists the counts of all
albums by year.
-/

namespace PhotoTally

/-- The counts of one album. -/
structure AlbumCounts where
  album : String
  /-- Every name ever recorded. -/
  total : Nat
  /-- Names that have a raw file and an edited picture. -/
  edited : Nat
  /-- Names that have no raw file any more. -/
  deleted : Nat
  deriving DecidableEq, Inhabited

namespace AlbumCounts

/-- Names still waiting for an edit; zero where the counts do not fit together. -/
def pending (c : AlbumCounts) : Nat := c.total - c.edited - c.deleted

/-- Whether nothing is pending. -/
def isComplete (c : AlbumCounts) : Bool := c.pending == 0

theorem isComplete_iff (c : AlbumCounts) : c.isComplete ↔ c.total ≤ c.edited + c.deleted := by
  simp [isComplete, pending]
  omega

/-- Counts the recorded names of an album against its raw files and its edited pictures. -/
def count (album : String) (recorded : List String) (raw edited : NameSet) : AlbumCounts where
  album
  total := recorded.length
  edited := recorded.countP fun n => n ∈ raw ∧ n ∈ edited
  deleted := recorded.countP fun n => n ∉ raw

end AlbumCounts

/-- The counts of one year's albums. -/
structure YearReport where
  year : String
  albums : List AlbumCounts
  deriving DecidableEq, Inhabited

/-- The counts of a whole run. -/
structure Report where
  years : List YearReport
  deriving DecidableEq, Inhabited

/-- Sums over the albums of a report. -/
structure Totals where
  albums : Nat
  complete : Nat
  total : Nat
  edited : Nat
  deleted : Nat
  deriving DecidableEq

namespace Report

def empty : Report := ⟨[]⟩

/-- All albums, in the order of the report. -/
def albums (r : Report) : List AlbumCounts := r.years.flatMap (·.albums)

def totals (r : Report) : Totals where
  albums := r.albums.length
  complete := r.albums.countP (·.isComplete)
  total := (r.albums.map (·.total)).foldr (· + ·) 0
  edited := (r.albums.map (·.edited)).foldr (· + ·) 0
  deleted := (r.albums.map (·.deleted)).foldr (· + ·) 0

end Report

end PhotoTally
