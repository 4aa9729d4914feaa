import PhotoTally.Proofs.FileSystem.Below
import PhotoTally.Proofs.FileSystem.Outline
import PhotoTally.Proofs.Reconcile.Again
import PhotoTally.Proofs.Scan.Found

/-!
# Exactly the names of an album's files

A scan that succeeds has found the base names of the files that are there, and no others
(`files_exact`): those whose name is text and accepted, directly in the folder or as deep below it
as the scan goes.  An entry is what its link leads to, if it is one (`HasEntry`).  All else does not
count: the order in which folders list their names, what files hold, entries of other kinds and what
is deeper (`insensitive_files`).
-/

namespace PhotoTally

namespace FileSystem

/-- Whether a folder has an entry with this name, which is something of this kind or a link that
leads to it.  A path that cannot be followed has no entries. -/
inductive HasEntry (fs : FileSystem) (folder : Path) (n : EntryName) (kind : Kind) : Prop where
  | itself {place : Place} {mode : Mode} {node : Node} :
      fs.stat folder = .ok (some place, .folder mode) → fs.find? (n :: place) = some node →
      node.isLink = false → node.kind = kind → HasEntry fs folder n kind
  | linked {place : Place} {mode : Mode} {target : Path} {spot : Spot} {node : Node} :
      fs.stat folder = .ok (some place, .folder mode) →
      fs.find? (n :: place) = some (.link target) →
      fs.stat (folder.join ⟨n.bytes⟩) = .ok (spot, node) → node.kind = kind →
      HasEntry fs folder n kind

/-- Whether a folder has a file with this name, in it or in a folder below, down to `depth`
levels. -/
def HasFile (fs : FileSystem) : Nat → Path → EntryName → Prop
  | 0, _, _ => False
  | depth + 1, folder, n => fs.HasEntry folder n .file ∨
      ∃ s, fs.HasEntry folder s .folder ∧ HasFile fs depth (folder.join ⟨s.bytes⟩) n

variable {fs : FileSystem} {folder : Path} {n : EntryName} {kind : Kind} {depth : Nat}

/-- What the entries of a folder are, given where its path leads. -/
theorem hasEntry_iff {here : Spot} {mode : Mode}
    (hfolder : fs.stat folder = .ok (here, .folder mode)) :
    fs.HasEntry folder n kind ↔ ∃ node, fs.entry? here n = some node ∧
      if node.isLink then ∃ found, fs.stat (folder.join ⟨n.bytes⟩) = .ok found ∧ found.2.kind = kind
      else node.kind = kind := by
  constructor
  · intro h
    cases h with
    | itself hstat hnode hlink hkind =>
      rw [hfolder] at hstat
      obtain ⟨rfl, -⟩ := Prod.mk.inj (Except.ok.inj hstat)
      exact ⟨_, hnode, by rwa [if_neg (by simp [hlink])]⟩
    | linked hstat hnode htarget hkind =>
      rw [hfolder] at hstat
      obtain ⟨rfl, -⟩ := Prod.mk.inj (Except.ok.inj hstat)
      exact ⟨_, hnode, _, htarget, hkind⟩
  · rintro ⟨node, hnode, hkind⟩
    obtain ⟨place, rfl, hfind⟩ := Option.bind_eq_some_iff.1 hnode
    cases hlink : node.isLink with
    | false =>
      rw [if_neg (by simp [hlink])] at hkind
      exact .itself hfolder hfind hlink hkind
    | true =>
      obtain ⟨target, rfl⟩ := exists_target hlink
      obtain ⟨⟨spot, node⟩, htarget, hkind⟩ := hkind
      exact .linked hfolder hfind htarget hkind

theorem HasEntry.exists_stat (h : fs.HasEntry folder n kind) :
    ∃ here mode, fs.stat folder = .ok (here, .folder mode) := by
  cases h with
  | itself hfolder => exact ⟨_, _, hfolder⟩
  | linked hfolder => exact ⟨_, _, hfolder⟩

theorem HasEntry.mem_names (h : fs.HasEntry folder n kind) {here : Spot} {names : List EntryName}
    (hread : fs.readFolder folder = .ok (here, names)) : n ∈ names := by
  obtain ⟨spot, mode, hfolder⟩ := h.exists_stat
  obtain ⟨node, hnode, -⟩ := (hasEntry_iff hfolder).1 h
  obtain ⟨⟨m, hstat, -⟩, rfl⟩ := readFolder_eq_ok_iff.1 hread
  rw [hfolder] at hstat
  obtain ⟨rfl, -⟩ := Prod.mk.inj (Except.ok.inj hstat)
  exact mem_namesIn.2 (by rw [hnode]; rfl)

theorem HasFile.exists_stat (h : fs.HasFile depth folder n) :
    ∃ here mode, fs.stat folder = .ok (here, .folder mode) := by
  cases depth with
  | zero => exact h.elim
  | succ depth =>
    rcases h with h | ⟨s, h, -⟩
    · exact h.exists_stat
    · exact h.exists_stat

/-- A folder with a file below it can be read, or may not be. -/
theorem HasFile.ne_notFound (h : fs.HasFile depth folder n) :
    fs.readFolder folder ≠ .error (.os .notFound) := by
  obtain ⟨here, mode, hfolder⟩ := h.exists_stat
  unfold readFolder
  rw [hfolder]
  cases hmode : mode.grants .read <;> simp [Node.isFolder, Node.mode, hmode]

theorem hasFile_one : fs.HasFile 1 folder n ↔ fs.HasEntry folder n .file := by
  simp [HasFile]

theorem hasFile_two : fs.HasFile 2 folder n ↔ fs.HasEntry folder n .file ∨
    ∃ s, fs.HasEntry folder s .folder ∧ fs.HasEntry (folder.join ⟨s.bytes⟩) n .file := by
  simp [HasFile]

end FileSystem

namespace Scan

open FileSystem

variable {fs fs' : FileSystem} {folder folder' : Path} {n : EntryName} {kind : Kind} {depth : Nat}
  {accept : String → Bool} {trail : Trail} {here : Spot} {names : List EntryName}
  {found found' : NameSet} {x : String} {visits visits' : List Visit}

/-! ## Entries -/

theorem mk_eq_iff {path : Path} {e : Entry} :
    Entry.mk path n kind = e ↔ e.path = path ∧ e.name = n ∧ kind = e.kind := by
  constructor
  · rintro rfl
    exact ⟨rfl, rfl, rfl⟩
  · rintro ⟨rfl, rfl, rfl⟩
    rfl

/-- An entry is visited as what it is, unless it ends the scan. -/
theorem visit_eq_ok_iff (hread : fs.readFolder folder = .ok (here, names))
    (h : refusal? (fs.visit trail (folder.join ⟨n.bytes⟩) here n) = none) {e : Entry} :
    fs.visit trail (folder.join ⟨n.bytes⟩) here n = .ok e ↔
      e.path = folder.join ⟨n.bytes⟩ ∧ e.name = n ∧ fs.HasEntry folder n e.kind := by
  obtain ⟨⟨m, hfolder, hm, -⟩, -⟩ := readFolder_eq_ok_iff.1 hread
  obtain ⟨mode, rfl⟩ : ∃ mode, m = .folder mode := by
    cases m <;> simp_all [Node.isFolder]
  rw [hasEntry_iff hfolder]
  unfold visit at h ⊢
  cases hentry : fs.entry? here n with
  | none => simp
  | some node =>
    cases hlink : node.isLink with
    | false => cases node <;> simp_all [Node.isLink, mk_eq_iff]
    | true =>
      obtain ⟨target, rfl⟩ := exists_target hlink
      cases hstat : fs.stat (folder.join ⟨n.bytes⟩) with
      | error fault => simp [hlink]
      | ok found =>
        obtain ⟨spot, node⟩ := found
        simp only [hentry, hstat] at h ⊢
        split at h
        · -- a link to a folder that may not be entered would have ended the scan
          rename_i f hcheck
          have hmissing : f.isMissing = false := by
            split_ifs at hcheck
            exact isMissing_of_checkLinked hcheck
          simp [refusal?, hmissing] at h
        · rename_i hcheck
          simp [hlink, mk_eq_iff]

section Visits

variable {arrange : List EntryName → List EntryName}
  (harrange : ∀ names n, n ∈ arrange names ↔ n ∈ names)

include harrange

/-- Where no visit ends the scan, the visits below a folder are those of its entries and those below
its subfolders. -/
theorem ok_mem_visitsBelow_iff (hread : fs.readFolder folder = .ok (here, names))
    (h : ∀ v ∈ fs.visitsBelow arrange (depth + 1) trail folder, refusal? v = none) {e : Entry} :
    .ok e ∈ fs.visitsBelow arrange (depth + 1) trail folder ↔
      e.path = folder.join ⟨e.name.bytes⟩ ∧ fs.HasEntry folder e.name e.kind ∨
        ∃ s, fs.HasEntry folder s .folder ∧ .ok e ∈
          fs.visitsBelow arrange depth ((folder, here) :: trail) (folder.join ⟨s.bytes⟩) := by
  have hvisit {n : EntryName} (hn : n ∈ names) {e : Entry} :
      fs.visit ((folder, here) :: trail) (folder.join ⟨n.bytes⟩) here n = .ok e ↔
        e.path = folder.join ⟨n.bytes⟩ ∧ e.name = n ∧ fs.HasEntry folder n e.kind :=
    visit_eq_ok_iff hread (h _ ((mem_visitsBelow harrange hread).2 ⟨n, hn, .inl rfl⟩))
  rw [mem_visitsBelow harrange hread]
  constructor
  · rintro ⟨n, hn, he | ⟨s, hs, hkind, hbelow⟩⟩
    · obtain ⟨hpath, rfl, hentry⟩ := (hvisit hn).1 he.symm
      exact .inl ⟨hpath, hentry⟩
    · obtain ⟨-, -, hentry⟩ := (hvisit hn).1 hs
      exact .inr ⟨n, hkind ▸ hentry, hbelow⟩
  · rintro (⟨hpath, hentry⟩ | ⟨s, hentry, hbelow⟩)
    · have hn := hentry.mem_names hread
      exact ⟨e.name, hn, .inl ((hvisit hn).2 ⟨hpath, rfl, hentry⟩).symm⟩
    · have hs := hentry.mem_names hread
      exact ⟨s, hs, .inr ⟨⟨_, s, .folder⟩, (hvisit hs).2 ⟨rfl, rfl, hentry⟩, rfl, hbelow⟩⟩

/-- The folders that are visited do not end the scan either. -/
theorem refusal?_below (hread : fs.readFolder folder = .ok (here, names))
    (h : ∀ v ∈ fs.visitsBelow arrange (depth + 1) trail folder, refusal? v = none)
    {s : EntryName} (hs : fs.HasEntry folder s .folder) :
    ∀ v ∈ fs.visitsBelow arrange depth ((folder, here) :: trail) (folder.join ⟨s.bytes⟩),
      refusal? v = none := by
  intro v hv
  have hmem := hs.mem_names hread
  have hvisit : fs.visit ((folder, here) :: trail) (folder.join ⟨s.bytes⟩) here s =
      .ok ⟨folder.join ⟨s.bytes⟩, s, .folder⟩ :=
    (visit_eq_ok_iff hread (h _ ((mem_visitsBelow harrange hread).2 ⟨s, hmem, .inl rfl⟩))).2
      ⟨rfl, rfl, hs⟩
  exact h v ((mem_visitsBelow harrange hread).2 ⟨s, hmem, .inr ⟨_, hvisit, rfl, hv⟩⟩)

end Visits

/-! ## Files -/

/-- Whether a file of this name counts as `x`: the name is text and accepted, and `x` is its base
name. -/
def CountsAs (accept : String → Bool) (n : EntryName) (x : String) : Prop :=
  ∃ name, n.text? = some name ∧ accept name = true ∧ Photo.baseName? (.ofString name) = some x

theorem foundName?_ok_iff {e : Entry} (hpath : e.path = folder.join ⟨e.name.bytes⟩) :
    foundName? accept (.ok e) = some x ↔ e.kind = .file ∧ CountsAs accept e.name x := by
  have hbase : Photo.baseName? e.path = Photo.baseName? ⟨e.name.bytes⟩ := by
    rw [hpath, Path.baseName?_join]
  simp only [foundName?, CountsAs, hbase]
  cases htext : e.name.text? with
  | none => simp
  | some name =>
    have hname : Path.ofString name = ⟨e.name.bytes⟩ := by
      rw [Path.ofString, Text.bytes_of_ofBytes? htext]
    simp [hname, and_assoc]

/-- The visits of a traversal that none of them ends add the names of the files that are there. -/
theorem exists_found_iff {arrange : List EntryName → List EntryName}
    (harrange : ∀ names n, n ∈ arrange names ↔ n ∈ names)
    (h : ∀ v ∈ fs.visitsBelow arrange depth trail folder, refusal? v = none) :
    (∃ v ∈ fs.visitsBelow arrange depth trail folder, foundName? accept v = some x) ↔
      ∃ n, fs.HasFile depth folder n ∧ CountsAs accept n x := by
  induction depth generalizing trail folder with
  | zero => simp [visitsBelow, HasFile]
  | succ depth ih =>
    cases hread : fs.readFolder folder with
    | error fault =>
      rw [visitsBelow_of_error hread] at h ⊢
      obtain rfl : fault = .os .notFound := by
        have hfault := h _ (List.mem_singleton_self _)
        simpa [refusal?, WalkFault.isMissing] using hfault
      refine iff_of_false (by simp [foundName?]) ?_
      rintro ⟨n, hfile, -⟩
      exact hfile.ne_notFound hread
    | ok entries =>
      obtain ⟨here, names⟩ := entries
      have hvisits {e : Entry} := ok_mem_visitsBelow_iff harrange hread h (e := e)
      have hbelow {s : EntryName} (hs : fs.HasEntry folder s .folder) :=
        ih (refusal?_below harrange hread h hs)
      constructor
      · rintro ⟨v, hv, hname⟩
        cases v with
        | error f => cases hname
        | ok e =>
          rcases hvisits.1 hv with ⟨hpath, hentry⟩ | ⟨s, hs, hv⟩
          · obtain ⟨hkind, hcounts⟩ := (foundName?_ok_iff hpath).1 hname
            exact ⟨e.name, .inl (hkind ▸ hentry), hcounts⟩
          · obtain ⟨n, hfile, hcounts⟩ := (hbelow hs).1 ⟨_, hv, hname⟩
            exact ⟨n, .inr ⟨s, hs, hfile⟩, hcounts⟩
      · rintro ⟨n, hentry | ⟨s, hs, hfile⟩, hcounts⟩
        · exact ⟨.ok ⟨folder.join ⟨n.bytes⟩, n, .file⟩, hvisits.2 (.inl ⟨rfl, hentry⟩),
            (foundName?_ok_iff rfl).2 ⟨rfl, hcounts⟩⟩
        · obtain ⟨v, hv, hname⟩ := (hbelow hs).2 ⟨n, hfile, hcounts⟩
          cases v with
          | error f => cases hname
          | ok e => exact ⟨.ok e, hvisits.2 (.inr ⟨s, hs, hv⟩), hname⟩

/-- A scan that succeeds has found the base names of the files that count, and nothing else. -/
theorem mem_files_iff (h : (files fs (depth + 1) accept folder).result = .ok found) (x : String) :
    x ∈ found ↔ ∃ n, fs.HasFile (depth + 1) folder n ∧ CountsAs accept n x := by
  obtain ⟨⟨-, hvisits⟩ | ⟨e, hstat⟩, hfound⟩ := files_eq_ok h
  · rw [hfound]
    exact exists_found_iff (fun _ _ => EntryName.mem_listed) hvisits
  · rw [files_of_stat_error hstat] at h
    obtain rfl := Except.ok.inj h
    refine iff_of_false (NameSet.not_mem_empty x) ?_
    rintro ⟨n, hfile, -⟩
    obtain ⟨here, mode, hfolder⟩ := hfile.exists_stat
    rw [hstat] at hfolder
    cases hfolder

end Scan

end PhotoTally
