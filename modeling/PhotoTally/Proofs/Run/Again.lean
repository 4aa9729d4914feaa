import PhotoTally.Proofs.AtomicWrite.Again
import PhotoTally.Proofs.Reconcile.Again
import PhotoTally.Proofs.Run.History

/-!
# Running again

A run that has succeeded can be repeated: it loads the ledger that it has saved, finds the same
folders, and writes the two files that are there already (`execute_again`).  For this the files must
not stand where the run looks for folders and photos (`IsApart`), and the report must not block the
way to its own folder (`report_blocks_its_way`).
-/

namespace PhotoTally.Run

variable {fs fs' : FileSystem} {c : Config} {l : Ledger} {r : Report} {faults : Faults}

/-! ## The parts of a run -/

/-- Both writes succeed if the report's does, and the ledger's where the first has left off. -/
theorem result_commit_eq_ok_iff : (commit fs c l r faults).2.result = .ok () ↔
    (r.save fs c.output c.format faults.report).2.result = .ok () ∧
      (l.save (r.save fs c.output c.format faults.report).1 c.ledger
        faults.ledger).2.result = .ok () := by
  unfold commit
  cases hreport : (r.save fs c.output c.format faults.report).2.result with
  | error f => simp [hreport]
  | ok _ => simp [hreport, Outcome.result_bind]

/-- A run that is not dry succeeds if its parts do, and then leaves what the second write does. -/
theorem execute_of_parts (hsurvey : (survey fs c).result = .ok (l, r))
    (hreport : (r.save fs c.output c.format faults.report).2.result = .ok ())
    (hsave : (l.save (r.save fs c.output c.format faults.report).1 c.ledger
      faults.ledger).2.result = .ok ()) :
    (execute fs c false faults).2.result = .ok r ∧
      (execute fs c false faults).1 =
        (l.save (r.save fs c.output c.format faults.report).1 c.ledger faults.ledger).1 := by
  have hcommit := result_commit_eq_ok_iff.2 ⟨hreport, hsave⟩
  have hleft : (commit fs c l r faults).1 =
      (l.save (r.save fs c.output c.format faults.report).1 c.ledger faults.ledger).1 := by
    unfold commit
    simp only [hreport]
  unfold execute
  simp [hsurvey, hcommit, hleft, Outcome.result_bind, Except.map]

theorem exists_parts (h : (execute fs c false faults).2.result = .ok r) :
    ∃ l, (survey fs c).result = .ok (l, r) ∧
      (r.save fs c.output c.format faults.report).2.result = .ok () ∧
      (l.save (r.save fs c.output c.format faults.report).1 c.ledger
        faults.ledger).2.result = .ok () := by
  unfold execute at h
  cases hsurvey : (survey fs c).result with
  | error f => simp [hsurvey] at h
  | ok found =>
    obtain ⟨l, r'⟩ := found
    cases hcommit : (commit fs c l r' faults).2.result with
    | error f => simp [hsurvey, hcommit, Outcome.result_bind, Except.map] at h
    | ok _ =>
      obtain rfl : r' = r := by
        simpa [hsurvey, hcommit, Outcome.result_bind, Except.map] using h
      exact ⟨l, rfl, result_commit_eq_ok_iff.1 hcommit⟩

/-- A run that succeeds and is not dry has met no fault. -/
theorem execute_noFaults_of_ok (h : (execute fs c false faults).2.result = .ok r) :
    execute fs c false faults = execute fs c false noFaults := by
  obtain ⟨l, hsurvey, hreport, hsave⟩ := exists_parts h
  have hfirst : r.save fs c.output c.format faults.report =
      r.save fs c.output c.format noFaults.report :=
    Report.save_noFaults_of_ok hreport
  have hsecond : l.save (r.save fs c.output c.format faults.report).1 c.ledger faults.ledger =
      l.save (r.save fs c.output c.format faults.report).1 c.ledger noFaults.ledger :=
    AtomicWrite.write_noFaults_of_ok hsave
  have hcommit : commit fs c l r faults = commit fs c l r noFaults := by
    unfold commit
    rw [← hfirst]
    simp only [hreport, hsecond]
  unfold execute
  simp only [hsurvey, hcommit]

/-! ## Files apart from the folders -/

/-- Whether neither of the files that a run writes takes a place that the run looks at when it goes
through the folders. -/
def IsApart (fs : FileSystem) (c : Config) : Prop :=
  ∀ path ∈ [c.output, c.ledger], ∀ place, AtomicWrite.targetPlace fs path = .ok place →
    ¬ Look.Covered (Reconcile.looks fs c) place

instance (fs : FileSystem) (c : Config) : Decidable (IsApart fs c) :=
  decidable_of_iff (∀ path ∈ [c.output, c.ledger],
      (AtomicWrite.targetPlace fs path).toOption.all fun place =>
        ¬ Look.Covered (Reconcile.looks fs c) place) <| by
    unfold IsApart
    refine forall₂_congr fun path _ => ?_
    cases AtomicWrite.targetPlace fs path <;> simp [Except.toOption]

/-! ## The second run -/

/-- The two writes of a run. -/
theorem exists_twoWrites (htree : fs.IsTree) (hsurvey : (survey fs c).result = .ok (l, r))
    (hreport : (r.save fs c.output c.format faults.report).2.result = .ok ())
    (hsave : (l.save (r.save fs c.output c.format faults.report).1 c.ledger
      faults.ledger).2.result = .ok ()) :
    ∃ p q, AtomicWrite.TwoWrites fs (r.save fs c.output c.format faults.report).1
      (l.save (r.save fs c.output c.format faults.report).1 c.ledger faults.ledger).1
      c.output c.ledger (r.render c.format).toUTF8 l.encode.toUTF8 p q := by
  obtain ⟨l₀, hload, -⟩ := survey_eq_ok_iff.1 hsurvey
  obtain ⟨found, hspelt, -⟩ := Ledger.load_eq_ok_iff.1 hload
  rw [Report.result_save] at hreport
  obtain ⟨p, hp, hfirst⟩ := AtomicWrite.write_of_ok hreport
  obtain ⟨q, hq, hsecond⟩ := AtomicWrite.write_of_ok hsave
  refine ⟨p, q, htree, hspelt.isLegible, ?_, hp, hfirst, ?_, hq, hsecond⟩
  · exact AtomicWrite.exists_temporary_of_ok hreport
  · exact AtomicWrite.exists_temporary_of_ok hsave

/-- What a run has read is read again where the folders are the same and its ledger was saved. -/
theorem survey_again (hsurvey : (survey fs c).result = .ok (l, r))
    (hagrees : fs.Agrees fs' (Look.Covered (Reconcile.looks fs c)))
    (hspelt : l.IsSpeltAt fs' c.ledger) : (survey fs' c).result = .ok (l, r) := by
  obtain ⟨l₀, hload, hrun⟩ := survey_eq_ok_iff.1 hsurvey
  obtain ⟨found, -, rfl⟩ := Ledger.load_eq_ok_iff.1 hload
  have hfree := (Reconcile.grows_of_run hrun).isDuplicateFree (Ledger.isDuplicateFree_dedup found)
  refine survey_eq_ok_iff.2 ⟨l, ?_, ?_⟩
  · exact Ledger.load_eq_ok_iff.2 ⟨l, hspelt, hfree.dedup_eq.symm⟩
  · rw [Reconcile.run_congr l hagrees]
    exact Reconcile.run_again hrun

/-- If the files that a run writes are apart from the folders, then a run that has succeeded can be
repeated, where no fault is met, exactly if the report does not block the way to its own folder.
Whenever the second run succeeds, it gives the same report, and leaves the file system as the first
has left it. -/
theorem execute_again (htree : fs.IsTree) (hapart : IsApart fs c)
    (h : (execute fs c false faults).2.result = .ok r) :
    ((∃ r₂, (execute (execute fs c false faults).1 c false noFaults).2.result = .ok r₂) ↔
        AtomicWrite.IsDirect fs c.output) ∧
      ∀ faults₂ r₂, (execute (execute fs c false faults).1 c false faults₂).2.result = .ok r₂ →
        r₂ = r ∧
          (execute (execute fs c false faults).1 c false faults₂).1 =
            (execute fs c false faults).1 := by
  obtain ⟨l, hsurvey, hreport, hsave⟩ := exists_parts h
  obtain ⟨p, q, hwrites⟩ := exists_twoWrites htree hsurvey hreport hsave
  rw [(execute_of_parts hsurvey hreport hsave).2]
  generalize hfs₂ : (l.save (r.save fs c.output c.format faults.report).1 c.ledger
    faults.ledger).1 = fs₂ at hwrites ⊢
  -- the second run reads what the first has read, with the ledger brought up to date
  have hagrees := hwrites.agrees (hapart c.output (by simp) p hwrites.place₁)
    (hapart c.ledger (by simp) q hwrites.place₂_before)
  have hspelt : l.IsSpeltAt fs₂ c.ledger := hfs₂ ▸ Ledger.isSpeltAt_save hsave hwrites.legible₁
  have hsurvey₂ := survey_again hsurvey hagrees hspelt
  have hagain (hdirect : AtomicWrite.IsDirect fs c.output) :
      (execute fs₂ c false noFaults).2.result = .ok r ∧
        (execute fs₂ c false noFaults).1 = fs₂ := by
    obtain ⟨hfirst, hsecond, hafter⟩ := hwrites.again hdirect
    obtain ⟨hok, hleft⟩ := @execute_of_parts fs₂ c l r noFaults hsurvey₂
      ((Report.result_save _ _ _ _ _).trans hfirst) hsecond
    exact ⟨hok, hleft.trans hafter⟩
  have hdirect {r₂ : Report} (hok : (execute fs₂ c false noFaults).2.result = .ok r₂) :
      AtomicWrite.IsDirect fs c.output := by
    obtain ⟨-, -, hreport₂, -⟩ := exists_parts hok
    rw [Report.result_save] at hreport₂
    obtain ⟨place, hplace, -⟩ := AtomicWrite.write_of_ok hreport₂
    exact hwrites.isDirect_of_again hplace
  refine ⟨⟨fun ⟨r₂, hok⟩ => hdirect hok, fun hd => ⟨r, (hagain hd).1⟩⟩, fun faults₂ r₂ hok => ?_⟩
  have hunmet := execute_noFaults_of_ok hok
  rw [hunmet] at hok ⊢
  obtain ⟨hsame, hleft⟩ := hagain (hdirect hok)
  exact ⟨Except.ok.inj (hok.symm.trans hsame), hleft⟩

/-- Two roots, and a folder with a link to itself. -/
def loopedOut : FileSystem :=
  (FileSystem.ofPaths ["/raws", "/edits", "/out"] []).put (Path.ofString "/out/here").place
    (.link (.ofString "."))

/-- A report whose way to its folder goes through the link that it takes the place of. -/
def throughLoop : Config := overTwoRoots "/counts.json" "/out/here/here"

/-- The second run cannot go the way that the first has gone. -/
theorem report_blocks_its_way :
    loopedOut.IsTree ∧ throughLoop.validate loopedOut = .ok throughLoop ∧
      IsApart loopedOut throughLoop ∧
      (execute loopedOut throughLoop false noFaults).2.result = .ok ⟨[]⟩ ∧
      (execute (execute loopedOut throughLoop false noFaults).1 throughLoop false
        noFaults).2.result =
        .error (.io (.ofString "/out/here")
          (.atPath (.os .notFolder) (.ofString "/out/here/.tmp000000"))) := by
  decide +kernel

/-- Roots with one album, and a ledger behind a link in which a name is repeated. -/
def linkedLedger : FileSystem :=
  let album := FileSystem.ofPaths
    ["/raws", "/raws/2023", "/raws/2023/Trip", "/edits", "/edits/2023", "/edits/2023/Trip"]
    ["/raws/2023/Trip/A.NEF", "/raws/2023/Trip/B.NEF", "/edits/2023/Trip/A.jpg"]
  let known := Ledger.ofDocument [("2023", [("Trip", ["C", "A", "C"])])]
  (album.put (Path.ofString "/old.json").place (.file 0o600 known.encode.toUTF8)).put
    (Path.ofString "/counts.json").place (.link (.ofString "old.json"))

theorem execute_again_linkedLedger :
    let c := overTwoRoots "/counts.json" "/photo_data.js"
    let r : Report := ⟨[⟨"2023", [⟨"Trip", 3, 1, 1⟩]⟩]⟩
    (execute linkedLedger c false noFaults).2.result = .ok r ∧
      (execute (execute linkedLedger c false noFaults).1 c false noFaults).2.result = .ok r ∧
      (execute (execute linkedLedger c false noFaults).1 c false noFaults).1 =
        (execute linkedLedger c false noFaults).1 := by
  intro c r
  have hruns : linkedLedger.IsTree ∧ IsApart linkedLedger c ∧
      AtomicWrite.IsDirect linkedLedger c.output ∧
      (execute linkedLedger c false noFaults).2.result = .ok r := by
    decide +kernel
  obtain ⟨htree, hapart, hdirect, hok⟩ := hruns
  obtain ⟨hiff, hsame⟩ := execute_again htree hapart hok
  obtain ⟨r₂, hagain⟩ := hiff.2 hdirect
  obtain ⟨rfl, hleft⟩ := hsame noFaults r₂ hagain
  exact ⟨hok, hagain, hleft⟩

end PhotoTally.Run
