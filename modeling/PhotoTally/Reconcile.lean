import PhotoTally.Config
import PhotoTally.Ledger.Basic
import PhotoTally.Scan

/-!
# Reconciling the ledger with the folders

A run goes through the years and albums of the source root in ascending order.  For each album it
records the raw files in the ledger, then counts the album's names against the raw files and the
pictures.  Nothing is written here.
-/

namespace PhotoTally

/-- The folder of an album below a root. -/
def albumFolder (root : Path) (year album : String) : Path :=
  (root.join (.ofString year)).join (.ofString album)

namespace Reconcile

/-- Records and counts one album.  The ledger keeps what was recorded also if the pictures cannot
be scanned. -/
def album (fs : FileSystem) (c : Config) (l : Ledger) (year album : String) :
    Ledger × Outcome AlbumCounts :=
  let raws := Scan.raws fs (albumFolder c.source year album)
  match raws.result with
  | .error f => (l, ⟨raws.events, .error f⟩)
  | .ok raw =>
    let (l, known) := l.record year album raw
    (l, do
      let raw ← raws
      let edited ← Scan.edits fs (albumFolder c.dest year album)
      return .count album known raw edited)

/-- Reconciles the listed albums of a year in turn. -/
def albums (fs : FileSystem) (c : Config) (year : String) :
    List String → Ledger → Outcome (Ledger × List AlbumCounts)
  | [], l => pure (l, [])
  | name :: rest, l => do
    let (l, outcome) := album fs c l year name
    let counts ← outcome
    .note (.albumCounted year name counts.edited counts.deleted counts.total)
    let (l, more) ← albums fs c year rest l
    return (l, counts :: more)

/-- Reconciles the listed years in turn. -/
def years (fs : FileSystem) (c : Config) :
    List String → Ledger → Outcome (Ledger × List YearReport)
  | [], l => pure (l, [])
  | year :: rest, l => do
    let names ← Scan.subfolders fs (c.source.join (.ofString year))
    let (l, counts) ← albums fs c year names l
    let (l, more) ← years fs c rest l
    return (l, ⟨year, counts⟩ :: more)

/-- Reconciles everything below the source root.  The result is the ledger with all that was seen,
and the report. -/
def run (fs : FileSystem) (c : Config) (l : Ledger) : Outcome (Ledger × Report) := do
  .note (.scanning c.source)
  let names ← Scan.subfolders fs c.source
  let (l, reports) ← years fs c names l
  return (l, ⟨reports⟩)

end Reconcile

end PhotoTally
