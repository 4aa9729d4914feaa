import PhotoTally.Scan
import PhotoTally.Proofs.Outcome
import PhotoTally.Proofs.Text.Order

/-!
# The listing of a folder

A listing that succeeds has the name of each subfolder once (`mem_subfolders`), and the names
ascend byte by byte (`subfolders_ascending`).  A subfolder is an entry that is a folder, or a link
that leads to one, and whose name is text.
-/

namespace PhotoTally

/-- Whether the folder that a path leads to has a subfolder with this name. -/
def FileSystem.HasSubfolder (fs : FileSystem) (folder : Path) (name : String) : Prop :=
  ∃ here names n, fs.readFolder folder = .ok (here, names) ∧ n ∈ names ∧ n.text? = some name ∧
    ((fs.entry? here n).any Node.isFolder ∨
      (fs.entry? here n).any Node.isLink ∧ fs.pathIsFolder (folder.join ⟨n.bytes⟩))

namespace Scan

variable {fs : FileSystem} {folder : Path} {names : List String}

/-! ## Visits -/

/-- The name that a visit adds to a listing. -/
def listedName? : Visit → Option String
  | .ok e => if e.kind = .folder then e.name.text? else none
  | .error _ => none

/-- Why a visit ends a scan, if it does. -/
def refusal? : Visit → Option Failure
  | .ok _ => none
  | .error f => if f.isMissing then none else some (.walk f)

/-- The first visit that ends a listing decides; without one each visit adds its name. -/
theorem result_foldersOf (visits : List Visit) :
    (foldersOf visits).result =
      match visits.findSome? refusal? with
      | some f => .error f
      | none => .ok (visits.filterMap listedName?) := by
  induction visits with
  | nil => rfl
  | cons v rest ih =>
    rw [foldersOf.eq_def, List.findSome?_cons, List.filterMap_cons]
    cases v with
    | error f =>
      cases hf : f.isMissing with
      | false => simp [hf, refusal?]
      | true => simp [hf, refusal?, listedName?, Outcome.result_bind, ih]
    | ok e =>
      by_cases hk : e.kind = .folder
      · cases hn : e.name.text? with
        | none => simp [hk, hn, refusal?, listedName?, Outcome.result_bind, ih]
        | some name =>
          cases hrest : rest.findSome? refusal? <;>
            simp [hk, hn, refusal?, listedName?, ih, hrest, Except.map]
      · simp [hk, refusal?, listedName?, ih]

theorem result_foldersOf_of_forall {visits : List Visit} (h : ∀ v ∈ visits, refusal? v = none) :
    (foldersOf visits).result = .ok (visits.filterMap listedName?) := by
  rw [result_foldersOf, List.findSome?_eq_none_iff.2 h]

/-! ## The entries of a folder -/

/-- What a traversal of one level has for the entries of a folder. -/
def visitsOf (fs : FileSystem) (folder : Path) (here : Spot) (names : List EntryName) :
    List Visit :=
  names.map fun n => fs.visit [(folder, here)] (folder.join ⟨n.bytes⟩) here n

theorem visitsBelow_one (fs : FileSystem) (folder : Path) :
    fs.visitsBelow id 1 [] folder =
      match fs.readFolder folder with
      | .error e => [.error (.io folder e)]
      | .ok (here, names) => visitsOf fs folder here names := by
  rw [FileSystem.visitsBelow]
  cases hread : fs.readFolder folder with
  | error e => rfl
  | ok found =>
    obtain ⟨here, names⟩ := found
    simp only [id_eq, visitsOf, List.map_eq_flatMap]
    congr 1
    funext n
    cases fs.visit [(folder, here)] (folder.join ⟨n.bytes⟩) here n with
    | error f => rfl
    | ok e => simp [FileSystem.visitsBelow]

theorem kind_eq_folder_iff (m : Node) : m.kind = .folder ↔ m.isFolder = true := by
  cases m <;> simp [Node.kind, Node.isFolder]

/-- A link to a folder that may not be entered leads somewhere, and ends the scan. -/
theorem isMissing_of_checkLinked {trail : FileSystem.Trail} {path : Path} {spot : Spot} {m : Node}
    {f : WalkFault} (h : FileSystem.checkLinked trail path spot m = .error f) :
    f.isMissing = false := by
  unfold FileSystem.checkLinked at h
  split_ifs at h
  · obtain rfl := Except.error.inj h
    rfl
  · split at h
    · obtain rfl := Except.error.inj h
      rfl
    · cases h

/-- The entries that a visit counts as folders are folders, or links that lead to one. -/
theorem listedName?_visit {trail : FileSystem.Trail} {path : Path} {here : Spot} {n : EntryName}
    (h : refusal? (fs.visit trail path here n) = none) (name : String) :
    listedName? (fs.visit trail path here n) = some name ↔
      n.text? = some name ∧ ((fs.entry? here n).any Node.isFolder ∨
        (fs.entry? here n).any Node.isLink ∧ fs.pathIsFolder path) := by
  unfold FileSystem.visit at *
  cases hentry : fs.entry? here n with
  | none => simp [listedName?]
  | some node =>
    cases node with
    | folder mode => simp [listedName?, Node.kind, Node.isFolder]
    | file mode contents => simp [listedName?, Node.kind, Node.isFolder, Node.isLink]
    | pipe mode => simp [listedName?, Node.kind, Node.isFolder, Node.isLink]
    | link target =>
      unfold FileSystem.pathIsFolder
      cases hstat : fs.stat path with
      | error e => simp [listedName?, Node.isFolder, Except.toOption]
      | ok found =>
        obtain ⟨spot, m⟩ := found
        have hlink : (Node.link target).isLink = true := rfl
        have hnot : (Node.link target).isFolder = false := rfl
        simp only [hentry, hstat] at h
        cases hm : m.isFolder with
        | false => simp [hm, hnot, kind_eq_folder_iff, listedName?, Except.toOption]
        | true =>
          cases hcheck : FileSystem.checkLinked trail path spot m with
          | ok _ =>
            simp [hm, hlink, hcheck, kind_eq_folder_iff, listedName?, Except.toOption]
          | error f =>
            rw [if_pos hm, hcheck] at h
            simp [refusal?, isMissing_of_checkLinked hcheck] at h

/-! ## Listings -/

/-- A listing that succeeds was of something. -/
theorem exists_stat_of_subfolders (h : (subfolders fs folder).result = .ok names) :
    ∃ found, fs.stat folder = .ok found := by
  unfold subfolders FileSystem.traverse at h
  cases hstat : fs.stat folder with
  | error e => simp [hstat] at h
  | ok found => exact ⟨found, rfl⟩

/-- A listing that succeeds has visited every entry of a folder that can be read, or found none. -/
theorem visits_of_subfolders (h : (subfolders fs folder).result = .ok names) :
    ((∃ e, fs.readFolder folder = .error e) ∧ names = []) ∨
      ∃ here listed, fs.readFolder folder = .ok (here, listed) ∧
        (∀ v ∈ visitsOf fs folder here listed, refusal? v = none) ∧
        names = (visitsOf fs folder here listed).filterMap listedName? := by
  unfold subfolders FileSystem.traverse at h
  cases hstat : fs.stat folder with
  | error e => simp [hstat] at h
  | ok found =>
    obtain ⟨spot, node⟩ := found
    rw [hstat] at h
    cases hfolder : node.isFolder with
    | false =>
      have hread : fs.readFolder folder = .error (.os .notFolder) := by
        simp [FileSystem.readFolder, hstat, hfolder]
      simp only [hfolder, Bool.not_false, if_true, result_foldersOf, List.findSome?_nil,
        List.filterMap_nil, Except.ok.injEq] at h
      exact .inl ⟨⟨_, hread⟩, h.symm⟩
    | true =>
      simp only [hfolder, Bool.not_true, Bool.false_eq_true, if_false] at h
      split at h
      · rename_i f hcheck
        split at hcheck
        · cases h
        · cases hcheck
      · rename_i visits htraverse
        split at htraverse
        · cases htraverse
        · obtain rfl := Except.ok.inj htraverse
          rw [visitsBelow_one, result_foldersOf] at h
          split at h
          · cases h
          · rename_i hnone
            obtain rfl := Except.ok.inj h
            cases hread : fs.readFolder folder with
            | error e => exact .inl ⟨⟨e, rfl⟩, by simp [listedName?]⟩
            | ok found =>
              obtain ⟨here, listed⟩ := found
              rw [hread] at hnone
              exact .inr ⟨here, listed, rfl, List.findSome?_eq_none_iff.1 hnone, rfl⟩

theorem mem_subfolders (h : (subfolders fs folder).result = .ok names) (name : String) :
    name ∈ names ↔ fs.HasSubfolder folder name := by
  unfold FileSystem.HasSubfolder
  rcases visits_of_subfolders h with ⟨⟨e, hread⟩, rfl⟩ | ⟨here, listed, hread, hvisits, rfl⟩
  · simp [hread]
  · unfold visitsOf at *
    rw [List.filterMap_map, List.mem_filterMap]
    constructor
    · rintro ⟨n, hn, hname⟩
      have hrefusal := hvisits _ (List.mem_map_of_mem hn)
      exact ⟨here, listed, n, hread, hn, (listedName?_visit hrefusal name).1 hname⟩
    · rintro ⟨here', listed', n, hread', hn, hname⟩
      obtain ⟨rfl, rfl⟩ : here = here' ∧ listed = listed' := by
        simpa using hread.symm.trans hread'
      have hrefusal := hvisits _ (List.mem_map_of_mem hn)
      exact ⟨n, hn, (listedName?_visit hrefusal name).2 hname⟩

/-- A listing ascends byte by byte. -/
theorem subfolders_ascending (h : (subfolders fs folder).result = .ok names) :
    names.Pairwise fun a b => Text.bytes a < Text.bytes b := by
  rcases visits_of_subfolders h with ⟨-, rfl⟩ | ⟨here, listed, hread, hvisits, rfl⟩
  · exact .nil
  · have hlisted : listed.Pairwise fun m n => m.bytes < n.bytes := by
      have hnames : listed = fs.namesIn here := by
        unfold FileSystem.readFolder at hread
        split at hread
        · cases hread
        · split_ifs at hread
          obtain ⟨rfl, rfl⟩ : _ = here ∧ _ = listed := by simpa using hread
          rfl
      rw [hnames]
      cases here with
      | none => exact .nil
      | some place => exact (fs.pairwise_children place).imp fun hlt => Text.lt_of_compare hlt
    unfold visitsOf at *
    rw [List.filterMap_map]
    refine List.Pairwise.filterMap _ ?_ (List.Pairwise.and_mem.1 hlisted)
    rintro m n ⟨hm, hn, hlt⟩ a ha b hb
    have ha' := ((listedName?_visit (hvisits _ (List.mem_map_of_mem hm)) a).1 ha).1
    have hb' := ((listedName?_visit (hvisits _ (List.mem_map_of_mem hn)) b).1 hb).1
    rwa [Text.bytes_of_ofBytes? ha', Text.bytes_of_ofBytes? hb']

theorem subfolders_nodup (h : (subfolders fs folder).result = .ok names) : names.Nodup :=
  Text.nodup_of_ascending (subfolders_ascending h)

end Scan

end PhotoTally
