import PhotoTally.Proofs.Reconcile.Sets
import PhotoTally.Proofs.Reconcile.Accounting
import PhotoTally.Proofs.Report.Counting
import PhotoTally.Proofs.Report.Totals

/-!
# The totals of a run

The totals of a run's report tell whether every album is complete, since no row of it has more names
edited or deleted than it has names (`isConsistent_of_run`); and they stay within the counts of the
ledger that the run returns, since each row stands for an album of that ledger.
-/

namespace PhotoTally.Reconcile

variable {fs : FileSystem} {c : Config} {l l' : Ledger} {r : Report}

/-- Every row of a run's report is a count of names, so what is edited and deleted is among them. -/
theorem isConsistent_of_run (h : (run fs c l).result = .ok (l', r)) : r.IsConsistent := by
  intro row hrow
  obtain ⟨y, hy, hmem⟩ := List.mem_flatMap.1 hrow
  obtain ⟨raw, edited, -, -, hcount⟩ := ((describes_of_run h).accounts y hy).counts row hmem
  rw [hcount, ← AlbumCounts.edited_add_deleted_add_pending]
  exact Nat.le_add_right _ _

/-- Totals of reports are added field by field when one report follows the other, and depend on the
albums alone, not on their order or their years.  In the report of a run nothing is missing to the
total exactly if all albums are complete, and it has no more names and albums than the ledger that
the run returns. -/
theorem totals_balance :
    (∀ r₁ r₂ : Report, (r₁.append r₂).totals = r₁.totals + r₂.totals) ∧
    (∀ r₁ r₂ : Report, r₁.albums.Perm r₂.albums → r₁.totals = r₂.totals) ∧
    (∀ r : Report, r.totals.complete ≤ r.totals.albums) ∧
    ∀ fs c l l' r, (run fs c l).result = .ok (l', r) →
      r.totals.edited + r.totals.deleted ≤ r.totals.total ∧
      (r.totals.edited + r.totals.deleted = r.totals.total ↔
        r.totals.complete = r.totals.albums) ∧
      r.totals.total ≤ l'.fileCount ∧ r.totals.albums ≤ l'.albumCount := by
  refine ⟨Report.totals_append, fun r₁ r₂ h => Report.totals_of_perm h, Report.totals_complete_le,
    fun fs c l l' r h => ?_⟩
  have hconsistent := isConsistent_of_run h
  refine ⟨?_, hconsistent.totals_eq_iff, totals_le h⟩
  rw [hconsistent.totals_eq]
  exact Nat.le_add_right _ _

/-- A ledger with an album that is no longer there, besides one that has a raw file without a
picture and a name without a raw file. -/
def halfGone : Ledger := halfKnown.update "2022" "Lake" (.ofList ["X", "Y"])

theorem totals_balance_halfGone :
    let grown := halfGone.update "2023" "Trip" (.ofList ["B"])
    let report : Report := ⟨[⟨"2023", [⟨"Trip", 3, 1, 1⟩]⟩]⟩
    (run halfEdited halfEditedRoots halfGone).result = .ok (grown, report) ∧
      report.totals.edited + report.totals.deleted ≤ report.totals.total ∧
      (report.totals.edited + report.totals.deleted = report.totals.total ↔
        report.totals.complete = report.totals.albums) ∧
      report.totals.total ≤ grown.fileCount ∧ report.totals.albums ≤ grown.albumCount ∧
      grown.fileCount = 5 ∧ grown.albumCount = 2 := by
  intro grown report
  have hrun : (run halfEdited halfEditedRoots halfGone).result = .ok (grown, report) := by
    decide +kernel
  obtain ⟨hle, hiff, htotal, halbums⟩ := totals_balance.2.2.2 _ _ _ _ _ hrun
  exact ⟨hrun, hle, hiff, htotal, halbums, by decide +kernel, by decide +kernel⟩

end PhotoTally.Reconcile
