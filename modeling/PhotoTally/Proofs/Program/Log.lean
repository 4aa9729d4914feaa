import PhotoTally.Program
import PhotoTally.Proofs.AtomicWrite.Again

/-!
# The log file beside the others

The log is opened before a command and filled behind it.  Opening it puts an empty file where there
is no folder, if it changes anything (`IsOpened`, `exists_isOpened`), so the file system stays a
tree and a path that names a place later has named it before.  Filling it changes an empty file
only (`appendLog_cases`): what a path leads to, and is not empty, stays as it is
(`stat_appendLog`).
-/

namespace PhotoTally

namespace FileSystem

variable {fs fs' : FileSystem} {manner : Manner} {here p place : Place} {steps : List Step}

/-! ## Where a file is opened -/

theorem isFolder_tail_of_walkPlain {onLink : Place → Path → List Step → Except OsError Place}
    (htree : fs.IsTree) (hhere : (fs.find? here).isSome)
    (hlink : ∀ here target rest, fs.isFolder here = true → onLink here target rest = .ok p →
      fs.isFolder p.tail = true)
    (h : fs.walkPlain manner onLink here steps = .ok p) : fs.isFolder p.tail = true := by
  induction steps generalizing here with
  | nil =>
    obtain rfl : here = p := by simpa [walkPlain] using h
    exact htree.parent here hhere
  | cons step rest ih =>
    rw [walkPlain.eq_def] at h
    simp only at h
    split at h
    · rename_i mode hmode
      have hfolder := isFolder_of_find? hmode
      have hup : (fs.find? here.tail).isSome := by
        obtain ⟨mode, hmode⟩ := exists_mode (htree.isFolder_tail hfolder)
        rw [hmode]
        rfl
      split at h
      · cases h
      split at h
      · cases h
      cases step with
      | gap => exact ih hhere h
      | stay => exact ih hhere h
      | up => exact ih hup h
      | refused e => cases h
      | down n =>
        simp only at h
        split at h
        · cases h
        cases hn : fs.find? (n :: here) with
        | none =>
          simp only [hn] at h
          split at h
          · cases h
            exact hfolder
          · cases h
        | some node =>
          have hnode : (fs.find? (n :: here)).isSome := by
            rw [hn]
            rfl
          rw [hn] at h
          cases node with
          | link target =>
            simp only at h
            split at h
            · cases h
              exact hfolder
            · exact hlink here target rest hfolder h
          | _ =>
            simp only at h
            split at h
            · cases h
            · exact ih hnode h
    · cases h

/-- A walk from somewhere ends in a folder's entry, be it there or not, or at the root. -/
theorem isFolder_tail_of_walk {links : Nat} (htree : fs.IsTree) (hhere : (fs.find? here).isSome)
    (h : fs.walk manner links here steps = .ok p) : fs.isFolder p.tail = true := by
  induction links generalizing here steps with
  | zero => exact isFolder_tail_of_walkPlain htree hhere (fun _ _ _ _ h => by cases h) h
  | succ links ih =>
    refine isFolder_tail_of_walkPlain htree hhere (fun here target rest hfolder h => ?_) h
    have hstart : (fs.find? (linkStart target here)).isSome := by
      obtain ⟨mode, hmode⟩ := exists_mode hfolder
      unfold linkStart
      split_ifs
      · rfl
      · rw [hmode]
        rfl
    split at h
    · cases h
    · exact ih hstart h

/-- What the opening of an empty file at `place` leaves: an empty file where there was no folder, or
everything as it was where there is something that holds nothing. -/
inductive IsOpened (fs : FileSystem) : FileSystem → Place → Prop where
  | emptied {place : Place} (mode : Mode) : fs.isFolder place = false →
      IsOpened fs (fs.put place (.file mode .empty)) place
  | kept {place : Place} : (∀ mode contents, fs.find? place ≠ some (.file mode contents)) →
      IsOpened fs fs place

theorem isOpened_of_openEmpty {path : Path} (h : fs.openEmpty path = .ok (fs', place)) :
    fs.IsOpened fs' place ∧ fs.resolve .opened path = .ok (some place) := by
  unfold openEmpty at h
  split at h
  · cases h
  · cases h
  rename_i found hresolve
  split at h
  · rename_i hfind
    split at h
    · cases h
    · cases h
      refine ⟨.emptied _ ?_, hresolve⟩
      rw [isFolder, hfind]
      rfl
  · cases h
  · rename_i hfind
    split at h
    · cases h
    · cases h
      refine ⟨.emptied _ ?_, hresolve⟩
      rw [isFolder, hfind]
      rfl
  · rename_i hfile hfind
    split at h
    · cases h
    · cases h
      refine ⟨.kept fun mode contents hfile' => ?_, hresolve⟩
      rw [hfind] at hfile'
      cases hfile'
      exact hfile mode contents rfl

/-- A file other than the one that a path leads to is not on the path. -/
theorem not_mem_way_of_stat {path : Path} {q : Place} {node file : Node}
    (h : fs.stat path = .ok (some q, node)) (hfind : fs.find? place = some file)
    (hlink : file.isLink = false) (hfile : file.isFolder = false) (hne : place ≠ q) :
    place ∉ fs.way path := by
  obtain ⟨here, rest, hstart, hwalk⟩ := follow_eq_ok_iff.1 (follow_of_stat h)
  obtain ⟨k, hleads⟩ := walk_eq_ok_iff.1 hwalk
  rw [way_eq hstart]
  intro hmem
  rcases hleads.of_mem_places hmem with hq | hfolder | ⟨target, -, -, htarget, -⟩
  · exact hne hq
  · rw [isFolder, hfind, Option.any_some, hfile] at hfolder
    cases hfolder
  · rw [hfind] at htarget
    cases htarget
    cases hlink

end FileSystem

namespace Program

variable {fs fs' : FileSystem} {place : Place} {lines : String}

/-! ## Opening the log -/

/-- The log's path begins in the working folder. -/
theorem exists_of_start_logPath {here : Place} {rest : List Step} (htree : fs.IsTree)
    (h : fs.start logPath.isAbsolute logPath.steps = .ok (some (here, rest))) :
    (fs.find? here).isSome := by
  have hsteps : ∃ n, logPath.steps = [.down n] :=
    ⟨⟨logPath.bytes, by decide⟩, by decide⟩
  obtain ⟨n, hsteps⟩ := hsteps
  have hrelative : logPath.isAbsolute = false := by decide
  rw [hsteps, hrelative] at h
  cases hremoved : fs.workRemoved with
  | true => simp [FileSystem.start, hremoved, Step.isIdle] at h
  | false =>
    obtain ⟨rfl, -⟩ : fs.workFolder = here ∧ [Step.down n] = rest := by
      simpa [FileSystem.start, hremoved] using h
    obtain ⟨mode, hmode⟩ := FileSystem.exists_mode (htree.work hremoved)
    rw [hmode]
    rfl

theorem isTree_of_openLog (htree : fs.IsTree) (h : fs.openEmpty logPath = .ok (fs', place)) :
    fs'.IsTree := by
  obtain ⟨hopened, hresolve⟩ := FileSystem.isOpened_of_openEmpty h
  cases hopened with
  | kept => exact htree
  | emptied mode hfree =>
    have hfollow : fs.follow .opened logPath.isAbsolute logPath.steps = .ok (some place) := by
      unfold FileSystem.resolve at hresolve
      split_ifs at hresolve
      exact mapError_eq_ok_iff.1 hresolve
    obtain ⟨here, rest, hstart, hwalk⟩ := FileSystem.follow_eq_ok_iff.1 hfollow
    have hparent :=
      FileSystem.isFolder_tail_of_walk htree (exists_of_start_logPath htree hstart) hwalk
    cases place with
    | nil => exact absurd rfl (FileSystem.ne_nil_of_isFolder hfree)
    | cons n p => exact htree.put hparent hfree _

/-- What a target names after the log was opened it has named before, and it is direct if it was. -/
theorem targetPlace_of_openLog {target : Path} {p : Place}
    (h : fs.openEmpty logPath = .ok (fs', place))
    (hp : AtomicWrite.targetPlace fs' target = .ok p) :
    AtomicWrite.targetPlace fs target = .ok p ∧
      (AtomicWrite.IsDirect fs' target ↔ AtomicWrite.IsDirect fs target) := by
  cases (FileSystem.isOpened_of_openEmpty h).1 with
  | kept => exact ⟨hp, Iff.rfl⟩
  | emptied mode hfree =>
    exact ⟨AtomicWrite.targetPlace_before hfree rfl rfl hp,
      AtomicWrite.isDirect_before hfree rfl rfl hp⟩

/-! ## Filling the log -/

/-- Filling the log changes nothing, or an empty file at its place. -/
theorem appendLog_cases (fs : FileSystem) (place : Place) (lines : String) :
    appendLog fs place lines = fs ∨ ∃ mode contents,
      fs.find? place = some (.file mode .empty) ∧
        appendLog fs place lines = fs.put place (.file mode contents) := by
  unfold appendLog
  split
  · rename_i mode contents hfind
    split_ifs with hempty
    · right
      have hnothing : contents = .empty := by
        simpa [ByteArray.isEmpty, ByteArray.size_eq_zero_iff] using hempty
      refine ⟨mode, contents ++ lines.toUTF8, hnothing ▸ hfind, ?_⟩
      unfold FileSystem.append
      rw [hfind]
    · exact .inl rfl
  · exact .inl rfl

section NotEmpty

variable {p : Place} {mode : Mode} {contents : ByteArray} (hcontents : contents ≠ .empty)

include hcontents

/-- A file that is not empty is left as it is. -/
theorem find?_appendLog (h : fs.find? p = some (.file mode contents)) (place : Place)
    (lines : String) : (appendLog fs place lines).find? p = some (.file mode contents) := by
  rcases appendLog_cases fs place lines with hsame | ⟨_, _, hfind, hput⟩
  · rw [hsame, h]
  · have hne : p ≠ place := by
      rintro rfl
      cases h.symm.trans hfind
      exact hcontents rfl
    have hfree := (FileSystem.isDeadEnd_of_find? hfind rfl rfl).1
    rw [hput, FileSystem.find?_put_of_ne (FileSystem.ne_nil_of_isFolder hfree) hne, h]

/-- A path to a file that is not empty leads there as before. -/
theorem stat_appendLog {path : Path} (h : fs.stat path = .ok (some p, .file mode contents))
    (place : Place) (lines : String) :
    (appendLog fs place lines).stat path = .ok (some p, .file mode contents) := by
  rcases appendLog_cases fs place lines with hsame | ⟨_, _, hfind, hput⟩
  · rw [hsame, h]
  · have hne : place ≠ p := by
      rintro rfl
      cases (FileSystem.find?_of_stat h).symm.trans hfind
      exact hcontents rfl
    have hfree := (FileSystem.isDeadEnd_of_find? hfind rfl rfl).1
    rw [hput, FileSystem.stat_put (FileSystem.ne_nil_of_isFolder hfree) _
      (FileSystem.not_mem_way_of_stat h hfind rfl rfl hne), h]

end NotEmpty

/-! ## A command between them -/

/-- What a command finds and leaves, `opened` and `after`, and what the program leaves then, whether
there is a log or not. -/
inductive Logged (fs : FileSystem) : FileSystem → FileSystem → FileSystem → Prop where
  | without (after : FileSystem) : Logged fs fs after after
  | between {opened : FileSystem} {place : Place} (after : FileSystem) (lines : String) :
      fs.openEmpty logPath = .ok (opened, place) →
      Logged fs opened after (appendLog after place lines)

namespace Logged

variable {opened after files : FileSystem} (h : Logged fs opened after files)

include h

theorem isTree (htree : fs.IsTree) : opened.IsTree := by
  cases h with
  | without => exact htree
  | between after lines hopen => exact isTree_of_openLog htree hopen

theorem targetPlace {target : Path} {p : Place}
    (hp : AtomicWrite.targetPlace opened target = .ok p) :
    AtomicWrite.targetPlace fs target = .ok p ∧
      (AtomicWrite.IsDirect opened target ↔ AtomicWrite.IsDirect fs target) := by
  cases h with
  | without => exact ⟨hp, Iff.rfl⟩
  | between after lines hopen => exact targetPlace_of_openLog hopen hp

variable {p : Place} {mode : Mode} {contents : ByteArray} (hcontents : contents ≠ .empty)

include hcontents

theorem find? (hfind : after.find? p = some (.file mode contents)) :
    files.find? p = some (.file mode contents) := by
  cases h with
  | without => exact hfind
  | between after lines => exact find?_appendLog hcontents hfind _ lines

theorem stat {path : Path} (hstat : after.stat path = .ok (some p, .file mode contents)) :
    files.stat path = .ok (some p, .file mode contents) := by
  cases h with
  | without => exact hstat
  | between after lines => exact stat_appendLog hcontents hstat _ lines

end Logged

end Program

end PhotoTally
