import PhotoTally.AtomicWrite
import PhotoTally.Ledger.Format

/-!
# The ledger in its file

Loading takes a missing file for an empty ledger and drops names that an album repeats.  Saving
replaces the file as a whole.
-/

namespace PhotoTally.Ledger

/-- The ledger that a file's text spells, without repeated names. -/
def ofText (path : Path) (text : String) : Outcome Ledger :=
  match decode text with
  | .error e => .fail (.badLedger path e)
  | .ok found => do
    let l := found.dedup
    let dropped := found.fileCount - l.fileCount
    if dropped ≠ 0 then .note (.duplicatesDropped path dropped)
    .note (.ledgerLoaded path l.albumCount l.fileCount)
    return l

/-- The ledger in the file at `path`. -/
def load (fs : FileSystem) (path : Path) : Outcome Ledger :=
  match fs.readText path with
  | .ok text => ofText path text
  | .error e =>
    if e = .os .notFound then do
      .note (.ledgerMissing path)
      return empty
    else .fail (.io path e)

/-- Writes the ledger to the file at `path`. -/
def save (fs : FileSystem) (path : Path) (l : Ledger) (faults : AtomicWrite.Faults) :
    FileSystem × Outcome Unit :=
  AtomicWrite.write fs path l.encode.toUTF8 faults

end PhotoTally.Ledger
