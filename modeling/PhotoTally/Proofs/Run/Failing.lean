import PhotoTally.Proofs.Run.DryRun
import PhotoTally.Proofs.Scan.Found

/-!
# Failures of the work

`x.FailsBy P` says that `x` can only end in a failure which satisfies `P`; a computation put
together from others fails as they do (`FailsBy.bind`).  Nothing that reads the folders or the
ledger, or writes one of the files, fails by the configuration (`workFails`).
-/

namespace PhotoTally

/-! ## Computations -/

namespace Outcome

variable {α β : Type} {P : Failure → Prop} {x : Outcome α} {f : α → Outcome β}

/-- Whether every failure that a computation can end in satisfies `P`. -/
def FailsBy (P : Failure → Prop) (x : Outcome α) : Prop := ∀ f, x.result = .error f → P f

theorem failsBy_pure (a : α) : (pure a : Outcome α).FailsBy P := fun _ h => nomatch h

theorem failsBy_note (e : Event) : (note e).FailsBy P := fun _ h => nomatch h

theorem failsBy_fail {f : Failure} (h : P f) : (fail f : Outcome α).FailsBy P := by
  intro f' h'
  obtain rfl := Except.error.inj h'
  exact h

/-- What goes on after a computation fails as this does or as what follows. -/
theorem FailsBy.bind (hx : x.FailsBy P) (hf : ∀ a, (f a).FailsBy P) : (x >>= f).FailsBy P := by
  intro e h
  rw [result_bind] at h
  cases hresult : x.result with
  | error e' =>
    rw [hresult] at h
    obtain rfl := Except.error.inj h
    exact hx _ hresult
  | ok a =>
    rw [hresult] at h
    exact hf a e h

end Outcome

open Outcome

/-- Whether a failure is one of the work, not of the configuration. -/
def Failure.IsOfWork (f : Failure) : Prop := f.isConfiguration = false

variable {fs : FileSystem} {c : Config}

/-! ## What reads -/

namespace Scan

theorem isOfWork_of_refusal? {v : Visit} {f : Failure} (h : refusal? v = some f) : f.IsOfWork := by
  cases v with
  | ok e => cases h
  | error cause =>
    simp only [refusal?] at h
    split_ifs at h
    obtain rfl := Option.some.inj h
    rfl

theorem foldersOf_failsBy (visits : List Visit) : (foldersOf visits).FailsBy Failure.IsOfWork := by
  intro f h
  rw [result_foldersOf] at h
  cases hfirst : visits.findSome? refusal? with
  | none =>
    rw [hfirst] at h
    cases h
  | some f' =>
    rw [hfirst] at h
    obtain rfl := Except.error.inj h
    obtain ⟨v, -, hv⟩ := List.exists_of_findSome?_eq_some hfirst
    exact isOfWork_of_refusal? hv

theorem subfolders_failsBy (fs : FileSystem) (folder : Path) :
    (subfolders fs folder).FailsBy Failure.IsOfWork := by
  unfold subfolders
  split
  · exact failsBy_fail rfl
  · exact foldersOf_failsBy _

theorem filesOf_failsBy (accept : String → Bool) (visits : List Visit) (names : NameSet) :
    (filesOf accept visits names).FailsBy Failure.IsOfWork := by
  induction visits generalizing names with
  | nil => exact failsBy_pure names
  | cons v rest ih =>
    intro f h
    rw [result_filesOf_cons] at h
    cases hv : refusal? v with
    | none =>
      rw [hv] at h
      exact ih _ f h
    | some f' =>
      rw [hv] at h
      obtain rfl := Except.error.inj h
      exact isOfWork_of_refusal? hv

theorem files_failsBy (fs : FileSystem) (depth : Nat) (accept : String → Bool) (folder : Path) :
    (files fs depth accept folder).FailsBy Failure.IsOfWork := by
  unfold files
  split_ifs
  · exact (failsBy_note _).bind fun _ => failsBy_pure _
  · exact failsBy_fail rfl
  · split
    · exact filesOf_failsBy accept _ _
    · exact filesOf_failsBy accept _ _

end Scan

namespace Ledger

theorem ofText_failsBy (path : Path) (text : String) :
    (ofText path text).FailsBy Failure.IsOfWork := by
  unfold ofText
  split
  · exact failsBy_fail rfl
  · dsimp only
    split_ifs
    · exact (failsBy_note _).bind fun _ => (failsBy_note _).bind fun _ => failsBy_pure _
    · exact (failsBy_note _).bind fun _ => failsBy_pure _

theorem load_failsBy (fs : FileSystem) (path : Path) :
    (load fs path).FailsBy Failure.IsOfWork := by
  unfold load
  split
  · exact ofText_failsBy path _
  · split
    · exact (failsBy_note _).bind fun _ => failsBy_pure _
    · exact failsBy_fail rfl

end Ledger

namespace Reconcile

theorem album_failsBy (fs : FileSystem) (c : Config) (l : Ledger) (year name : String) :
    (album fs c l year name).2.FailsBy Failure.IsOfWork := by
  unfold album
  have hraws : (Scan.raws fs (albumFolder c.source year name)).FailsBy Failure.IsOfWork :=
    Scan.files_failsBy fs _ _ _
  cases hraw : (Scan.raws fs (albumFolder c.source year name)).result with
  | error f =>
    simp only [hraw]
    intro f' h
    obtain rfl := Except.error.inj h
    exact hraws _ hraw
  | ok raw =>
    simp only [hraw]
    exact hraws.bind fun _ => (Scan.files_failsBy fs _ _ _).bind fun _ => failsBy_pure _

theorem albums_failsBy (fs : FileSystem) (c : Config) (year : String) (names : List String)
    (l : Ledger) : (albums fs c year names l).FailsBy Failure.IsOfWork := by
  induction names generalizing l with
  | nil => exact failsBy_pure _
  | cons name rest ih =>
    exact (album_failsBy fs c l year name).bind fun _ => (failsBy_note _).bind fun _ =>
      (ih _).bind fun _ => failsBy_pure _

theorem years_failsBy (fs : FileSystem) (c : Config) (names : List String) (l : Ledger) :
    (years fs c names l).FailsBy Failure.IsOfWork := by
  induction names generalizing l with
  | nil => exact failsBy_pure _
  | cons year rest ih =>
    exact (Scan.subfolders_failsBy fs _).bind fun _ => (albums_failsBy fs c year _ l).bind fun _ =>
      (ih _).bind fun _ => failsBy_pure _

theorem run_failsBy (fs : FileSystem) (c : Config) (l : Ledger) :
    (run fs c l).FailsBy Failure.IsOfWork :=
  (failsBy_note _).bind fun _ => (Scan.subfolders_failsBy fs _).bind fun _ =>
    (years_failsBy fs c _ l).bind fun _ => failsBy_pure _

end Reconcile

/-! ## What writes -/

theorem Failure.IsOfWrite.isOfWork {target : Path} {f : Failure} (h : f.IsOfWrite fs target) :
    f.IsOfWork := by
  cases h <;> rfl

theorem Ledger.save_failsBy (fs : FileSystem) (path : Path) (l : Ledger)
    (faults : AtomicWrite.Faults) : (l.save fs path faults).2.FailsBy Failure.IsOfWork :=
  fun _ h => (AtomicWrite.isOfWrite h).isOfWork

theorem Report.save_failsBy (fs : FileSystem) (path : Path) (format : OutputFormat) (r : Report)
    (faults : AtomicWrite.Faults) : (r.save fs path format faults).2.FailsBy Failure.IsOfWork := by
  intro f h
  rw [Report.result_save] at h
  exact (AtomicWrite.isOfWrite h).isOfWork

namespace Run

theorem survey_failsBy (fs : FileSystem) (c : Config) :
    (survey fs c).FailsBy Failure.IsOfWork :=
  (Ledger.load_failsBy fs c.ledger).bind fun l => Reconcile.run_failsBy fs c l

theorem execute_failsBy (fs : FileSystem) (c : Config) (dry : Bool) (faults : Faults) :
    (execute fs c dry faults).2.FailsBy Failure.IsOfWork := by
  intro f h
  have hending := ending_execute fs c dry faults
  rw [h] at hending
  generalize (execute fs c dry faults).1 = after at hending
  cases hending with
  | unread hsurvey => exact survey_failsBy fs c f hsurvey
  | unreported _ _ hreport => exact Report.save_failsBy _ _ _ _ _ f hreport
  | unsaved _ _ _ _ hledger => exact Ledger.save_failsBy _ _ _ _ f hledger

end Run

/-- Whether nothing that a run consists of fails by the configuration. -/
structure WorkFails (fs : FileSystem) : Prop where
  load : ∀ path, (Ledger.load fs path).FailsBy Failure.IsOfWork
  subfolders : ∀ folder, (Scan.subfolders fs folder).FailsBy Failure.IsOfWork
  raws : ∀ folder, (Scan.raws fs folder).FailsBy Failure.IsOfWork
  edits : ∀ folder, (Scan.edits fs folder).FailsBy Failure.IsOfWork
  album : ∀ c l year name, (Reconcile.album fs c l year name).2.FailsBy Failure.IsOfWork
  run : ∀ c l, (Reconcile.run fs c l).FailsBy Failure.IsOfWork
  execute : ∀ c dry faults, (Run.execute fs c dry faults).2.FailsBy Failure.IsOfWork
  saveReport : ∀ path format r faults,
    (Report.save fs path format r faults).2.FailsBy Failure.IsOfWork
  saveLedger : ∀ path l faults, (Ledger.save fs path l faults).2.FailsBy Failure.IsOfWork

theorem workFails (fs : FileSystem) : WorkFails fs where
  load := Ledger.load_failsBy fs
  subfolders := Scan.subfolders_failsBy fs
  raws := Scan.files_failsBy fs _ _
  edits := Scan.files_failsBy fs _ _
  album := Reconcile.album_failsBy fs
  run := Reconcile.run_failsBy fs
  execute := Run.execute_failsBy fs
  saveReport := Report.save_failsBy fs
  saveLedger := Ledger.save_failsBy fs

end PhotoTally
