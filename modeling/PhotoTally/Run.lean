import PhotoTally.Ledger.Store
import PhotoTally.Reconcile

/-!
# A whole run

A run loads the ledger, reconciles it with the folders, and then writes the report and the ledger,
in this order.  A dry run stops before the first write, and so does a run that fails while it only
reads.
-/

namespace PhotoTally

/-- Writes the report to the file at `path`. -/
def Report.save (fs : FileSystem) (path : Path) (format : OutputFormat) (r : Report)
    (faults : AtomicWrite.Faults) : FileSystem × Outcome Unit :=
  let (fs, outcome) := AtomicWrite.write fs path (r.render format).toUTF8 faults
  (fs, do
    outcome
    .note (.reportWritten path))

namespace Run

/-- What goes wrong in the two writes of a run. -/
structure Faults where
  report : AtomicWrite.Faults
  ledger : AtomicWrite.Faults
  deriving DecidableEq

def noFaults : Faults := ⟨AtomicWrite.noFaults, AtomicWrite.noFaults⟩

/-- What a run reads: the ledger brought up to date, and the report. -/
def survey (fs : FileSystem) (c : Config) : Outcome (Ledger × Report) := do
  let l ← Ledger.load fs c.ledger
  Reconcile.run fs c l

/-- Writes the report, then the ledger. -/
def commit (fs : FileSystem) (c : Config) (l : Ledger) (r : Report) (faults : Faults) :
    FileSystem × Outcome Unit :=
  let (fs, reported) := r.save fs c.output c.format faults.report
  match reported.result with
  | .error f => (fs, ⟨reported.events, .error f⟩)
  | .ok () =>
    let (fs, saved) := l.save fs c.ledger faults.ledger
    (fs, do
      reported
      saved)

/-- Runs with the given configuration.  A dry run writes nothing. -/
def execute (fs : FileSystem) (c : Config) (dry : Bool) (faults : Faults) :
    FileSystem × Outcome Report :=
  let surveyed := survey fs c
  match surveyed.result with
  | .error f => (fs, ⟨surveyed.events, .error f⟩)
  | .ok (l, r) =>
    if dry then
      (fs, do
        let _ ← surveyed
        .note (.dryRun c.output c.ledger)
        return r)
    else
      let (fs, committed) := commit fs c l r faults
      (fs, do
        let _ ← surveyed
        committed
        return r)

end Run

end PhotoTally
