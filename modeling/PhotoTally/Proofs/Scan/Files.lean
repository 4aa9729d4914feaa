import PhotoTally.Scan
import PhotoTally.Proofs.Outcome

/-!
# How the scan of an album ends

`FilesEnding` lists the ways in which the scan of an album's folder can end, and `ending_files` says
that there are no others.  A path that cannot be followed counts as an empty folder, whatever the
reason is; a path that leads to something else than a folder that can be read ends the scan
(`reached_of_files`, `exists_failure_of_reached`).
-/

namespace PhotoTally

/-- Whether a path leads to a folder that can be read. -/
def FileSystem.CanRead (fs : FileSystem) (folder : Path) : Prop :=
  ∃ found, fs.readFolder folder = .ok found

instance (fs : FileSystem) (folder : Path) : Decidable (fs.CanRead folder) :=
  decidable_of_iff (fs.readFolder folder).toOption.isSome <| by
    unfold FileSystem.CanRead
    cases fs.readFolder folder <;> simp [Except.toOption]

/-- Whether there is nothing at a path. -/
def FileSystem.IsAbsent (fs : FileSystem) (path : Path) : Prop :=
  fs.stat path = .error (.os .notFound)

namespace Scan

variable {fs : FileSystem} {depth : Nat} {accept : String → Bool} {folder : Path} {names : NameSet}

/-- The ways in which the scan of a folder ends. -/
inductive FilesEnding (fs : FileSystem) (depth : Nat) (accept : String → Bool) (folder : Path) :
    Except Failure NameSet → Prop where
  | unreached {e : IoFault} : fs.stat folder = .error e →
      FilesEnding fs depth accept folder (.ok .empty)
  | notFolder {spot : Spot} {n : Node} : fs.stat folder = .ok (spot, n) → n.isFolder = false →
      FilesEnding fs depth accept folder (.error (.io folder .notAlbumFolder))
  | unread {e : IoFault} {f : WalkFault} : fs.readFolder folder = .error e →
      FilesEnding fs depth accept folder (.error (.walk f))
  | read : fs.CanRead folder → FilesEnding fs depth accept folder
      (filesOf accept (fs.visitsBelow EntryName.listed depth [] folder) .empty).result

theorem canRead_iff_of_stat {spot : Spot} {n : Node} (hstat : fs.stat folder = .ok (spot, n)) :
    fs.CanRead folder ↔ n.isFolder = true ∧ n.mode.grants .read = true := by
  unfold FileSystem.CanRead FileSystem.readFolder
  rw [hstat]
  cases hfolder : n.isFolder <;> cases hread : n.mode.grants .read <;> simp [hread, hfolder]

/-- A folder that can be reached is read, or the scan ends with the failure of the traversal. -/
theorem ending_traverse {spot : Spot} {n : Node} (hstat : fs.stat folder = .ok (spot, n))
    (hfolder : n.isFolder = true) :
    FilesEnding fs (depth + 1) accept folder
      (match fs.traverse EntryName.listed (depth + 1) folder with
        | .error f => filesOf accept [.error f] .empty
        | .ok visits => filesOf accept visits .empty).result := by
  cases hread : n.mode.grants .read with
  | true =>
    have htraverse : fs.traverse EntryName.listed (depth + 1) folder =
        .ok (fs.visitsBelow EntryName.listed (depth + 1) [] folder) := by
      unfold FileSystem.traverse
      simp [hstat, hfolder, FileSystem.checkLinked, hread]
    rw [htraverse]
    exact .read ((canRead_iff_of_stat hstat).2 ⟨hfolder, hread⟩)
  | false =>
    have hdenied : fs.readFolder folder = .error (.os .denied) := by
      unfold FileSystem.readFolder
      simp [hstat, hfolder, hread]
    unfold FileSystem.traverse
    cases hlink : fs.pathIsLink folder with
    | true =>
      simp only [hstat, hfolder, FileSystem.checkLinked, hread, Bool.not_true, Bool.not_false,
        Bool.false_eq_true, if_true, if_false]
      exact .unread hdenied
    | false =>
      simp only [hstat, hfolder, FileSystem.visitsBelow, hdenied, Bool.not_true,
        Bool.false_eq_true, if_false]
      exact .unread hdenied

theorem ending_files (fs : FileSystem) (depth : Nat) (accept : String → Bool) (folder : Path) :
    FilesEnding fs (depth + 1) accept folder (files fs (depth + 1) accept folder).result := by
  unfold files FileSystem.pathExists FileSystem.pathIsFolder
  cases hstat : fs.stat folder with
  | error e => exact .unreached hstat
  | ok found =>
    obtain ⟨spot, n⟩ := found
    cases hfolder : n.isFolder with
    | false =>
      simp only [Except.toOption, Option.isSome_some, Option.any_some, hfolder, Bool.not_true,
        Bool.not_false, Bool.false_eq_true, if_true, if_false]
      exact .notFolder hstat hfolder
    | true =>
      simp only [Except.toOption, Option.isSome_some, Option.any_some, hfolder, Bool.not_true,
        Bool.false_eq_true, if_false]
      exact ending_traverse hstat hfolder

/-- A scan that succeeds has read the folder, or the path cannot be followed and counts as empty. -/
theorem reached_of_files (h : (files fs (depth + 1) accept folder).result = .ok names) :
    fs.CanRead folder ∨ names = .empty ∧ ∃ e, fs.stat folder = .error e := by
  have hending := ending_files fs depth accept folder
  rw [h] at hending
  generalize hresult : Except.ok names = result at hending
  cases hending with
  | unreached hstat => exact .inr ⟨Except.ok.inj hresult, _, hstat⟩
  | notFolder _ _ => cases hresult
  | unread _ => cases hresult
  | read hread => exact .inl hread

/-- A path that cannot be followed counts as empty. -/
theorem files_of_stat_error {e : IoFault} (h : fs.stat folder = .error e) :
    (files fs depth accept folder).result = .ok .empty := by
  unfold files FileSystem.pathExists
  rw [h]
  rfl

/-- A path that leads to anything but a folder that can be read ends the scan. -/
theorem exists_failure_of_reached {found : Spot × Node} (hstat : fs.stat folder = .ok found)
    (hread : ¬ fs.CanRead folder) :
    ∃ f, (files fs (depth + 1) accept folder).result = .error f := by
  cases hresult : (files fs (depth + 1) accept folder).result with
  | error f => exact ⟨f, rfl⟩
  | ok names =>
    obtain hcan | ⟨-, e, he⟩ := reached_of_files hresult
    · exact absurd hcan hread
    · rw [hstat] at he
      cases he

end Scan

end PhotoTally
