import PhotoTally.Run
import PhotoTally.Proofs.AtomicWrite.Stages

/-!
# How a run ends

`Ending` lists the ways in which a run can end, with the file system that each leaves behind and
what the run returns, and `ending_execute` says that there are no others, whatever goes wrong in the
two writes.  A run that fails has changed nothing, unless the report is in place and only the ledger
could not be saved (`execute_of_error`).
-/

namespace PhotoTally

theorem Report.result_save (fs : FileSystem) (path : Path) (format : OutputFormat) (r : Report)
    (faults : AtomicWrite.Faults) :
    (r.save fs path format faults).2.result =
      (AtomicWrite.write fs path (r.render format).toUTF8 faults).2.result := by
  unfold Report.save
  rw [Outcome.result_bind]
  cases (AtomicWrite.write fs path (r.render format).toUTF8 faults).2.result <;> rfl

theorem Report.save_noFaults_of_ok {fs : FileSystem} {path : Path} {format : OutputFormat}
    {r : Report} {faults : AtomicWrite.Faults}
    (h : (r.save fs path format faults).2.result = .ok ()) :
    r.save fs path format faults = r.save fs path format AtomicWrite.noFaults := by
  rw [result_save] at h
  unfold save
  rw [AtomicWrite.write_noFaults_of_ok h]

namespace Run

variable {fs : FileSystem} {c : Config} {dry : Bool} {l l' : Ledger} {r : Report} {f : Failure}
  {faults : Faults}

theorem survey_eq_ok_iff : (survey fs c).result = .ok (l', r) ↔
    ∃ l, (Ledger.load fs c.ledger).result = .ok l ∧
      (Reconcile.run fs c l).result = .ok (l', r) :=
  Outcome.result_bind_eq_ok_iff

/-- The file system with the report at the place of the report file. -/
def reported (fs : FileSystem) (c : Config) (r : Report) (place : Place) : FileSystem :=
  fs.put place (AtomicWrite.complete fs c.output (r.render c.format).toUTF8)

/-- The ways in which a run ends, with what it leaves behind and what it returns. -/
inductive Ending (fs : FileSystem) (c : Config) (dry : Bool) (faults : Faults) :
    FileSystem → Except Failure Report → Prop where
  | unread {f : Failure} : (survey fs c).result = .error f → Ending fs c dry faults fs (.error f)
  | dry {l : Ledger} {r : Report} : dry = true → (survey fs c).result = .ok (l, r) →
      Ending fs c dry faults fs (.ok r)
  | unreported {l : Ledger} {r : Report} {f : Failure} : dry = false →
      (survey fs c).result = .ok (l, r) →
      (r.save fs c.output c.format faults.report).2.result = .error f →
      Ending fs c dry faults fs (.error f)
  | unsaved {l : Ledger} {r : Report} {f : Failure} {place : Place} : dry = false →
      (survey fs c).result = .ok (l, r) →
      (r.save fs c.output c.format faults.report).2.result = .ok () →
      AtomicWrite.targetPlace fs c.output = .ok place →
      (l.save (reported fs c r place) c.ledger faults.ledger).2.result = .error f →
      Ending fs c dry faults (reported fs c r place) (.error f)
  | committed {l : Ledger} {r : Report} {place : Place} : dry = false →
      (survey fs c).result = .ok (l, r) →
      AtomicWrite.targetPlace fs c.output = .ok place →
      (l.save (reported fs c r place) c.ledger faults.ledger).2.result = .ok () →
      Ending fs c dry faults (l.save (reported fs c r place) c.ledger faults.ledger).1 (.ok r)

/-- What the two writes of a run leave behind. -/
theorem ending_commit (faults : Faults) (hsurvey : (survey fs c).result = .ok (l, r)) :
    Ending fs c false faults (commit fs c l r faults).1
      ((commit fs c l r faults).2.result.map fun _ => r) := by
  unfold commit
  cases hreport : (r.save fs c.output c.format faults.report).2.result with
  | error f =>
    have hwrite : (r.save fs c.output c.format faults.report).1 = fs := by
      rw [Report.result_save] at hreport
      exact AtomicWrite.write_of_error hreport
    simp only [hwrite, hreport]
    exact .unreported rfl hsurvey hreport
  | ok _ =>
    obtain ⟨place, hplace, hwrite⟩ :=
      AtomicWrite.write_of_ok (Report.result_save _ _ _ _ _ ▸ hreport)
    have hwrite : (r.save fs c.output c.format faults.report).1 = reported fs c r place := hwrite
    simp only [hwrite, Outcome.result_bind, hreport]
    cases hledger : (l.save (reported fs c r place) c.ledger faults.ledger).2.result with
    | error f =>
      have hsame : (l.save (reported fs c r place) c.ledger faults.ledger).1 =
          reported fs c r place :=
        AtomicWrite.write_of_error hledger
      rw [hsame]
      exact .unsaved rfl hsurvey hreport hplace hledger
    | ok _ => exact .committed rfl hsurvey hplace hledger

theorem ending_execute (fs : FileSystem) (c : Config) (dry : Bool) (faults : Faults) :
    Ending fs c dry faults (execute fs c dry faults).1 (execute fs c dry faults).2.result := by
  unfold execute
  cases hsurvey : (survey fs c).result with
  | error f =>
    simp only [hsurvey]
    exact .unread hsurvey
  | ok found =>
    obtain ⟨l, r⟩ := found
    cases dry with
    | true =>
      simp only [if_true, Outcome.result_bind, hsurvey]
      exact .dry rfl hsurvey
    | false =>
      have hcommit := ending_commit faults hsurvey
      simp only [Bool.false_eq_true, if_false, Outcome.result_bind, hsurvey]
      cases hdone : (commit fs c l r faults).2.result <;> rw [hdone] at hcommit <;> exact hcommit

/-- A run that fails while it reads, or in the report's write, has changed nothing.  The only other
failure is that of saving the ledger: then the report is complete in its place, and nothing has
changed at any other place. -/
theorem execute_of_error (h : (execute fs c false faults).2.result = .error f) :
    ((execute fs c false faults).1 = fs ∧
        ((survey fs c).result = .error f ∨
          ∃ l r, (survey fs c).result = .ok (l, r) ∧
            (r.save fs c.output c.format faults.report).2.result = .error f)) ∨
      ∃ l r place, (survey fs c).result = .ok (l, r) ∧
        (r.save fs c.output c.format faults.report).2.result = .ok () ∧
        AtomicWrite.targetPlace fs c.output = .ok place ∧
        (execute fs c false faults).1 = reported fs c r place ∧
        (∀ p ≠ place, (execute fs c false faults).1.find? p = fs.find? p) ∧
        (l.save (execute fs c false faults).1 c.ledger faults.ledger).2.result = .error f := by
  have hending := ending_execute fs c false faults
  rw [h] at hending
  generalize (execute fs c false faults).1 = after at hending
  cases hending with
  | unread hsurvey => exact .inl ⟨rfl, .inl hsurvey⟩
  | unreported _ hsurvey hreport => exact .inl ⟨rfl, .inr ⟨_, _, hsurvey, hreport⟩⟩
  | unsaved _ hsurvey hreport hplace hledger =>
    refine .inr ⟨_, _, _, hsurvey, hreport, hplace, rfl, fun p hp => ?_, hledger⟩
    obtain ⟨steps, n, parent, mode, rfl, -⟩ := AtomicWrite.exists_of_targetPlace hplace
    exact FileSystem.find?_put_of_ne (List.cons_ne_nil n parent) hp _

/-- Two empty roots. -/
def twoRoots : FileSystem := .ofPaths ["/raws", "/edits"] []

/-- A run over the two roots. -/
def overTwoRoots (ledger output : String) : Config where
  source := .ofString "/raws"
  dest := .ofString "/edits"
  ledger := .ofString ledger
  output := .ofString output
  format := .json

/-- A ledger whose folder is missing. -/
def homeless : Config := overTwoRoots "/missing/counts.json" "/photo_data.js"

/-- No temporary file can be made in a missing folder. -/
def missingFolder : Failure :=
  .io (.ofString "/missing") (.atPath (.os .notFound) (.ofString "/missing/.tmp000000"))

/-- A run that fails can leave a report where there was none. -/
theorem report_left_by_failed_run :
    homeless.validate twoRoots = .ok homeless ∧
      (execute twoRoots homeless false noFaults).2.result = .error missingFolder ∧
      twoRoots.readText homeless.output = .error (.os .notFound) ∧
      (execute twoRoots homeless false noFaults).1.readText homeless.output = .ok "[]" := by
  decide +kernel

/-- A disk that is full when the report is written. -/
def reportTooLarge : Faults := { noFaults with report := AtomicWrite.diskFull }

theorem execute_of_error_homeless :
    (execute twoRoots homeless false noFaults).2.result = .error missingFolder ∧
      (∃ l r place, (survey twoRoots homeless).result = .ok (l, r) ∧
        AtomicWrite.targetPlace twoRoots homeless.output = .ok place ∧
        (execute twoRoots homeless false noFaults).1 = reported twoRoots homeless r place ∧
        ∀ p ≠ place, (execute twoRoots homeless false noFaults).1.find? p = twoRoots.find? p) ∧
      (execute twoRoots homeless false reportTooLarge).2.result =
        .error (.io (.ofString "/.tmp000000")
          (.atPath (.os (.other 28 "No space left on device")) (.ofString "/.tmp000000"))) ∧
      (execute twoRoots homeless false reportTooLarge).1 = twoRoots := by
  have hruns : (execute twoRoots homeless false noFaults).2.result = .error missingFolder ∧
      (survey twoRoots homeless).result = .ok (.empty, ⟨[]⟩) ∧
      ((⟨[]⟩ : Report).save twoRoots homeless.output homeless.format
        AtomicWrite.noFaults).2.result = .ok () ∧
      (execute twoRoots homeless false reportTooLarge).2.result =
        .error (.io (.ofString "/.tmp000000")
          (.atPath (.os (.other 28 "No space left on device")) (.ofString "/.tmp000000"))) ∧
      ((⟨[]⟩ : Report).save twoRoots homeless.output homeless.format
        AtomicWrite.diskFull).2.result ≠ .ok () := by
    decide +kernel
  obtain ⟨hledger, hsurvey, hreport, hfull, hunwritten⟩ := hruns
  refine ⟨hledger, ?_, hfull, ?_⟩
  · rcases execute_of_error hledger with ⟨-, hread | ⟨l, r, hread, hwrite⟩⟩ |
      ⟨l, r, place, hread, -, hplace, hleft, hothers, -⟩
    · rw [hsurvey] at hread
      cases hread
    · rw [hsurvey] at hread
      cases hread
      exact absurd (hreport.symm.trans hwrite) (by simp)
    · exact ⟨l, r, place, hread, hplace, hleft, hothers⟩
  · rcases execute_of_error hfull with ⟨hsame, -⟩ | ⟨l, r, place, hread, hwrite, -⟩
    · exact hsame
    · rw [hsurvey] at hread
      cases hread
      exact absurd hwrite hunwritten

end Run

end PhotoTally
