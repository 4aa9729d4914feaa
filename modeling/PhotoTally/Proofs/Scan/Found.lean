import PhotoTally.Proofs.FileSystem.Additions
import PhotoTally.Proofs.Scan.Files
import PhotoTally.Proofs.Scan.Subfolders

/-!
# What the scan of an album finds

A scan succeeds exactly if no visit ends it, and finds the base names of the files that it accepts,
in whatever order they are visited (`filesOf_eq_ok`, `exists_filesOf`).  So it finds no less after
nodes were added (`files_mono`).
-/

namespace PhotoTally.Scan

open FileSystem

variable {fs fs' : FileSystem} {depth : Nat} {accept : String → Bool} {folder : Path}
  {visits : List Visit} {names found found' : NameSet}

/-- The base name that a visit adds to a scan. -/
def foundName? (accept : String → Bool) : Visit → Option String
  | .ok e =>
    if e.kind = .file ∧ e.name.text?.any accept then Photo.baseName? e.path else none
  | .error _ => none

/-- One visit is passed over, adds its base name, or ends the scan. -/
theorem result_filesOf_cons (v : Visit) (rest : List Visit) (names : NameSet) :
    (filesOf accept (v :: rest) names).result =
      (refusal? v).elim
        (filesOf accept rest ((foundName? accept v).elim names names.insert)).result .error := by
  rw [filesOf.eq_def]
  cases v with
  | error f =>
    cases hf : f.isMissing with
    | false => simp [hf, refusal?]
    | true => simp [hf, refusal?, foundName?, Outcome.result_bind]
  | ok e =>
    by_cases hk : e.kind = .file
    · cases hn : e.name.text? with
      | none => simp [hk, hn, refusal?, foundName?, Outcome.result_bind]
      | some name =>
        cases ha : accept name with
        | false => simp [hk, hn, ha, refusal?, foundName?]
        | true =>
          cases hb : Photo.baseName? e.path <;> simp [hk, hn, ha, hb, refusal?, foundName?]
    · simp [hk, refusal?, foundName?]

/-- A scan that succeeds was ended by no visit, and has found the base names that its visits add. -/
theorem filesOf_eq_ok (h : (filesOf accept visits names).result = .ok found) :
    (∀ v ∈ visits, refusal? v = none) ∧
      ∀ x, x ∈ found ↔ x ∈ names ∨ ∃ v ∈ visits, foundName? accept v = some x := by
  induction visits generalizing names with
  | nil =>
    obtain rfl := Except.ok.inj h
    simp
  | cons v rest ih =>
    rw [result_filesOf_cons] at h
    cases hv : refusal? v with
    | some f =>
      rw [hv] at h
      cases h
    | none =>
      rw [hv, Option.elim_none] at h
      obtain ⟨hrest, hfound⟩ := ih h
      refine ⟨List.forall_mem_cons.2 ⟨hv, hrest⟩, fun x => ?_⟩
      rw [hfound]
      cases hname : foundName? accept v with
      | none => simp [hname]
      | some y => simp [hname, or_assoc, or_left_comm, eq_comm]

/-- A scan that no visit ends succeeds. -/
theorem exists_filesOf (h : ∀ v ∈ visits, refusal? v = none) (names : NameSet) :
    ∃ found, (filesOf accept visits names).result = .ok found := by
  induction visits generalizing names with
  | nil => exact ⟨names, rfl⟩
  | cons v rest ih =>
    obtain ⟨hv, hrest⟩ := List.forall_mem_cons.1 h
    rw [result_filesOf_cons, hv]
    exact ih hrest _

/-! ## Folders -/

/-- A scan that succeeds has found what the visits below its folder add. -/
theorem files_eq_ok (h : (files fs (depth + 1) accept folder).result = .ok found) :
    ((fs.CanRead folder ∧ ∀ v ∈ fs.visitsBelow EntryName.listed (depth + 1) [] folder,
        refusal? v = none) ∨ ∃ e, fs.stat folder = .error e) ∧
      ∀ x, x ∈ found ↔ ∃ v ∈ fs.visitsBelow EntryName.listed (depth + 1) [] folder,
        foundName? accept v = some x := by
  have hending := ending_files fs depth accept folder
  rw [h] at hending
  generalize hresult : Except.ok found = result at hending
  cases hending with
  | @unreached e hstat =>
    obtain rfl := Except.ok.inj hresult
    have hread : fs.readFolder folder = .error e := by
      unfold readFolder
      rw [hstat]
    refine ⟨.inr ⟨e, hstat⟩, fun x => ?_⟩
    simp [visitsBelow_of_error hread, foundName?]
  | notFolder _ _ => cases hresult
  | unread _ => cases hresult
  | read hread =>
    obtain ⟨hvisits, hfound⟩ := filesOf_eq_ok hresult.symm
    refine ⟨.inl ⟨hread, hvisits⟩, fun x => ?_⟩
    rw [hfound]
    simp

/-- The scan of a folder that can be read succeeds if no visit ends it. -/
theorem exists_files (hread : fs.CanRead folder)
    (h : ∀ v ∈ fs.visitsBelow EntryName.listed (depth + 1) [] folder, refusal? v = none) :
    ∃ found, (files fs (depth + 1) accept folder).result = .ok found := by
  have hending := ending_files fs depth accept folder
  generalize (files fs (depth + 1) accept folder).result = result at hending ⊢
  obtain ⟨⟨here, listed⟩, hlisted⟩ := hread
  obtain ⟨⟨n, hstat, hn, -⟩, -⟩ := readFolder_eq_ok_iff.1 hlisted
  cases hending with
  | unreached _ => exact ⟨_, rfl⟩
  | notFolder hstat' hnot =>
    rw [hstat] at hstat'
    obtain ⟨rfl, rfl⟩ := Prod.mk.inj (Except.ok.inj hstat')
    rw [hn] at hnot
    cases hnot
  | unread herror =>
    rw [hlisted] at herror
    cases herror
  | read _ => exact exists_filesOf h _

/-- A scan finds no less after nodes were added. -/
theorem files_mono (h : fs.Keeps fs')
    (hfound : (files fs (depth + 1) accept folder).result = .ok found)
    (hfound' : (files fs' (depth + 1) accept folder).result = .ok found') :
    ∀ x ∈ found, x ∈ found' := by
  intro x hx
  obtain ⟨v, hv, hname⟩ := ((files_eq_ok hfound).2 x).1 hx
  refine ((files_eq_ok hfound').2 x).2 ⟨v, ?_, hname⟩
  cases v with
  | error f => cases hname
  | ok e => exact h.mem_visitsBelow (fun _ _ => EntryName.mem_listed) hv

end PhotoTally.Scan
