import PhotoTally.Proofs.Run.Written

/-!
# What a dry run predicts

A dry run and a run that writes read the same, and all that they read comes before the first write
(`execute_dry`, `execute_of_survey_error`).  So the dry run fails as the other would, or the other
can only fail in a write; and if it does not, then it returns the report that the dry run has
returned, and the two files hold the report and the ledger (`dry_run_predicts`).
-/

namespace PhotoTally

/-- Whether a write to the target can end in a failure: the temporary file could not be made, it
could not be given its permission bits, it could not be filled, or it could not take the target's
place. -/
inductive Failure.IsOfWrite (fs : FileSystem) (target : Path) : Failure → Prop where
  | create (e : IoFault) : IsOfWrite fs target (.io target.folder e)
  | permit {temp : Place} (e : OsError) : AtomicWrite.temporary fs target = .ok temp →
      IsOfWrite fs target (.io (AtomicWrite.temporaryPath fs target temp) (.os e))
  | fill {temp : Place} (e : IoFault) : AtomicWrite.temporary fs target = .ok temp →
      IsOfWrite fs target (.io (AtomicWrite.temporaryPath fs target temp)
        (.atPath e (AtomicWrite.temporaryPath fs target temp)))
  | replace (e : OsError) : IsOfWrite fs target (.replace target (.os e))

theorem AtomicWrite.isOfWrite {fs : FileSystem} {target : Path} {contents : ByteArray}
    {faults : Faults} {f : Failure}
    (h : (write fs target contents faults).2.result = .error f) : f.IsOfWrite fs target := by
  have hcourse := course_stages fs target contents faults
  rw [result_write] at h
  generalize stages fs target contents faults = course at h hcourse
  cases hcourse with
  | uncreated _ =>
    obtain rfl := Except.error.inj h
    exact .create _
  | unpermitted hcreate _ =>
    obtain rfl := Except.error.inj h
    exact .permit _ (create_eq_ok_iff.1 hcreate).1
  | unfilled hcreate _ _ =>
    obtain rfl := Except.error.inj h
    exact .fill _ (create_eq_ok_iff.1 hcreate).1
  | unplaced _ _ _ _ =>
    obtain rfl := Except.error.inj h
    exact .replace _
  | done _ _ _ _ => cases h

namespace Run

variable {fs : FileSystem} {c : Config} {l : Ledger} {r : Report} {f : Failure} {faults : Faults}

/-- A dry run returns what it has read, and leaves everything as it is. -/
theorem execute_dry (fs : FileSystem) (c : Config) (faults : Faults) :
    (execute fs c true faults).1 = fs ∧
      (execute fs c true faults).2.result = (survey fs c).result.map fun found => found.2 := by
  have hending := ending_execute fs c true faults
  generalize (execute fs c true faults).1 = after at hending ⊢
  generalize (execute fs c true faults).2.result = result at hending ⊢
  cases hending with
  | unread hsurvey =>
    rw [hsurvey]
    exact ⟨rfl, rfl⟩
  | dry _ hsurvey =>
    rw [hsurvey]
    exact ⟨rfl, rfl⟩
  | unreported hdry => cases hdry
  | unsaved hdry => cases hdry
  | committed hdry => cases hdry

/-- What fails before the first write fails alike in both. -/
theorem execute_of_survey_error (faults idle : Faults) (h : (survey fs c).result = .error f) :
    execute fs c false faults = execute fs c true idle := by
  unfold execute
  simp only [h]

/-- Whether a run that has read everything fails in one of its two writes. -/
inductive FailsWriting (fs : FileSystem) (c : Config) (l : Ledger) (r : Report) (faults : Faults) :
    Failure → Prop where
  | report {f : Failure} : (r.save fs c.output c.format faults.report).2.result = .error f →
      f.IsOfWrite fs c.output → FailsWriting fs c l r faults f
  | ledger {f : Failure} {place : Place} :
      (r.save fs c.output c.format faults.report).2.result = .ok () →
      AtomicWrite.targetPlace fs c.output = .ok place →
      (l.save (reported fs c r place) c.ledger faults.ledger).2.result = .error f →
      f.IsOfWrite (reported fs c r place) c.ledger → FailsWriting fs c l r faults f

/-- A run that has read everything ends well, or in one of its two writes. -/
theorem execute_of_survey_ok (faults : Faults) (h : (survey fs c).result = .ok (l, r)) :
    (execute fs c false faults).2.result = .ok r ∨
      ∃ f, (execute fs c false faults).2.result = .error f ∧ FailsWriting fs c l r faults f := by
  have hending := ending_execute fs c false faults
  generalize (execute fs c false faults).1 = after at hending
  generalize (execute fs c false faults).2.result = result at hending ⊢
  have hsame {l' : Ledger} {r' : Report} (h' : (survey fs c).result = .ok (l', r')) :
      l' = l ∧ r' = r := by
    simpa using h'.symm.trans h
  cases hending with
  | unread hsurvey =>
    rw [h] at hsurvey
    cases hsurvey
  | dry hdry => cases hdry
  | unreported _ hsurvey hreport =>
    obtain ⟨rfl, rfl⟩ := hsame hsurvey
    refine .inr ⟨_, rfl, .report hreport ?_⟩
    rw [Report.result_save] at hreport
    exact AtomicWrite.isOfWrite hreport
  | unsaved _ hsurvey hreport hplace hledger =>
    obtain ⟨rfl, rfl⟩ := hsame hsurvey
    exact .inr ⟨_, rfl, .ledger hreport hplace hledger (AtomicWrite.isOfWrite hledger)⟩
  | committed _ hsurvey =>
    obtain ⟨rfl, rfl⟩ := hsame hsurvey
    exact .inl rfl

/-- A dry run leaves everything as it is.  If it fails, so does a run that writes, with the same
events and the same failure and without a change.  If it returns a report, then the run returns the
same report or fails in one of its writes, whatever faults these meet.  A run that succeeds has the
report and the ledger in its two files, each of them complete, if these have different places; the
report can then be found by its path exactly if the way there is direct. -/
theorem dry_run_predicts (fs : FileSystem) (c : Config) (idle faults : Faults) :
    (execute fs c true idle).1 = fs ∧
    (∀ f, (execute fs c true idle).2.result = .error f →
      execute fs c false faults = execute fs c true idle) ∧
    (∀ r, (execute fs c true idle).2.result = .ok r →
      ∃ l, (survey fs c).result = .ok (l, r) ∧
        ((execute fs c false faults).2.result = .ok r ∨
          ∃ f, (execute fs c false faults).2.result = .error f ∧
            FailsWriting fs c l r faults f)) ∧
    ∀ r, (execute fs c false faults).2.result = .ok r →
      (execute fs c true idle).2.result = .ok r ∧
      ∃ l₀ l p q, (Ledger.load fs c.ledger).result = .ok l₀ ∧
        (Reconcile.run fs c l₀).result = .ok (l, r) ∧
        Written fs c l r (execute fs c false faults).1 p q := by
  obtain ⟨hsame, hdry⟩ := execute_dry fs c idle
  refine ⟨hsame, fun f hf => ?_, fun r hr => ?_, fun r hr => ?_⟩
  · rw [hdry, map_eq_error_iff] at hf
    exact execute_of_survey_error faults idle hf
  · rw [hdry, map_eq_ok_iff] at hr
    obtain ⟨⟨l, r'⟩, hsurvey, rfl⟩ := hr
    exact ⟨l, hsurvey, execute_of_survey_ok faults hsurvey⟩
  · obtain ⟨l, p, q, hsurvey, hwritten⟩ := written_of_execute hr
    obtain ⟨l₀, hload, hrun⟩ := survey_eq_ok_iff.1 hsurvey
    refine ⟨?_, l₀, l, p, q, hload, hrun, hwritten⟩
    rw [hdry, hsurvey]
    rfl

/-- A run whose report and ledger have different places can leave a report that its path does not
lead to. -/
theorem report_behind_itself :
    throughLoop.validate loopedOut = .ok throughLoop ∧
      (execute loopedOut throughLoop true noFaults).2.result = .ok ⟨[]⟩ ∧
      (execute loopedOut throughLoop false noFaults).2.result = .ok ⟨[]⟩ ∧
      AtomicWrite.targetPlace loopedOut throughLoop.output ≠
        AtomicWrite.targetPlace loopedOut throughLoop.ledger ∧
      (execute loopedOut throughLoop false noFaults).1.readText throughLoop.output =
        .error (.os .notFolder) := by
  decide +kernel

/-- Permission bits that may not be given to the ledger's temporary file. -/
def notPermitted : Faults :=
  { noFaults with
    ledger := { AtomicWrite.noFaults with permit := some (.other 1 "Operation not permitted") } }

theorem dry_run_predicts_linkedLedger :
    let c := overTwoRoots "/counts.json" "/photo_data.js"
    let r : Report := ⟨[⟨"2023", [⟨"Trip", 3, 1, 1⟩]⟩]⟩
    (execute linkedLedger c false noFaults).2.result = .ok r ∧
      (execute linkedLedger c true noFaults).2.result = .ok r ∧
      (∃ l p q, (survey linkedLedger c).result = .ok (l, r) ∧
        Written linkedLedger c l r (execute linkedLedger c false noFaults).1 p q ∧ p ≠ q ∧
        AtomicWrite.IsDirect linkedLedger c.output) ∧
      (execute linkedLedger c false notPermitted).2.result =
        .error (.io (.ofString "/.tmp000000") (.os (.other 1 "Operation not permitted"))) ∧
      ∃ l f, (execute linkedLedger c false notPermitted).2.result = .error f ∧
        FailsWriting linkedLedger c l r notPermitted f := by
  intro c r
  have hruns : (execute linkedLedger c false noFaults).2.result = .ok r ∧
      AtomicWrite.targetPlace linkedLedger c.output ≠
        AtomicWrite.targetPlace linkedLedger c.ledger ∧
      AtomicWrite.IsDirect linkedLedger c.output ∧
      (execute linkedLedger c false notPermitted).2.result =
        .error (.io (.ofString "/.tmp000000") (.os (.other 1 "Operation not permitted"))) := by
    decide +kernel
  obtain ⟨hok, hne, hdirect, hfails⟩ := hruns
  obtain ⟨hdry, l₀, l, p, q, hload, hrun, hwritten⟩ :=
    (dry_run_predicts linkedLedger c noFaults noFaults).2.2.2 r hok
  refine ⟨hok, hdry, ⟨l, p, q, survey_eq_ok_iff.2 ⟨l₀, hload, hrun⟩, hwritten, ?_, hdirect⟩,
    hfails, ?_⟩
  · rintro rfl
    exact hne (hwritten.report_place.trans hwritten.ledger_place.symm)
  · obtain ⟨l, -, hends⟩ := (dry_run_predicts linkedLedger c noFaults notPermitted).2.2.1 r hdry
    rcases hends with hends | ⟨f, hends, hwriting⟩
    · rw [hfails] at hends
      cases hends
    · exact ⟨l, f, hends, hwriting⟩

end Run

end PhotoTally
