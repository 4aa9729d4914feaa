import PhotoTally.NameSet

/-!
# The ledger

The ledger holds, for every album of every year, the names of all raw files ever seen there, in the
order in which they were first seen.  Recording only ever appends; a file that goes away keeps its
name in the ledger and is counted as deleted from then on.
-/

namespace PhotoTally

/-- The names of one year, by album. -/
abbrev YearRecord := TextMap (List String)

/-- Every raw name ever seen, by year and album. -/
structure Ledger where
  years : TextMap YearRecord
  deriving DecidableEq, Inhabited

namespace Ledger

def empty : Ledger := ⟨.empty⟩

/-- Whether not even a year is recorded. -/
def isEmpty (l : Ledger) : Bool := l.years.entries.isEmpty

/-- The names recorded for an album. -/
def album? (l : Ledger) (year album : String) : Option (List String) :=
  (l.years.get? year).bind (·.get? album)

/-- The names recorded for an album, none if it was never seen. -/
def names (l : Ledger) (year album : String) : List String := (l.album? year album).getD []

/-- The names of all albums, in order of year and album. -/
def lists (l : Ledger) : List (List String) := l.years.values.flatMap (·.values)

def albumCount (l : Ledger) : Nat := l.lists.length

def fileCount (l : Ledger) : Nat := l.lists.flatten.length

/-! ## Recording -/

/-- The known names, and behind them those of `raw` that are new, ascending. -/
def extend (known : List String) (raw : NameSet) : List String :=
  known ++ raw.toList.filter fun n => !known.contains n

/-- Records the raw files seen in an album, which exists from then on, and tells all names that the
album has then. -/
def record (l : Ledger) (year album : String) (raw : NameSet) : Ledger × List String :=
  let now := extend (l.names year album) raw
  (⟨l.years.update year fun albums => (albums.getD .empty).update album fun _ => now⟩, now)

/-- The ledger with the raw files seen in an album recorded. -/
def update (l : Ledger) (year album : String) (raw : NameSet) : Ledger :=
  (l.record year album raw).1

theorem album?_update (l : Ledger) (year album y a : String) (raw : NameSet) :
    (l.update year album raw).album? y a =
      if y = year ∧ a = album then some (extend (l.names year album) raw) else l.album? y a := by
  unfold update record album?
  rw [TextMap.get?_update]
  by_cases hy : y = year
  · subst hy
    simp only [if_true, Option.bind_some, TextMap.get?_update, true_and]
    cases l.years.get? y <;> simp
  · simp [hy]

@[simp] theorem album?_update_self (l : Ledger) (year album : String) (raw : NameSet) :
    (l.update year album raw).album? year album = some (extend (l.names year album) raw) := by
  simp [album?_update]

/-- A recording tells what the album has from then on. -/
theorem record_eq_names (l : Ledger) (year album : String) (raw : NameSet) :
    l.record year album raw =
      (l.update year album raw, (l.update year album raw).names year album) := by
  rw [names, album?_update_self]
  rfl

/-! ## Repeated names -/

/-- The names of an album without repetitions, each at its first place. -/
def firstOccurrences (names : List String) : List String := names.eraseDups

/-- The ledger with every album reduced to first occurrences. -/
def dedup (l : Ledger) : Ledger := ⟨l.years.mapValues (·.mapValues firstOccurrences)⟩

@[simp] theorem album?_dedup (l : Ledger) (year album : String) :
    l.dedup.album? year album = (l.album? year album).map firstOccurrences := by
  unfold dedup album?
  cases h : l.years.get? year <;> simp [h]

end Ledger

end PhotoTally
