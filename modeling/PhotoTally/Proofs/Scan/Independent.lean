import PhotoTally.Proofs.Scan.Enlarged
import PhotoTally.Proofs.Scan.Exact

/-!
# What a scan does not depend on

The order in which folders list their names does not count for a scan (`filesBy_eq_ok_iff`), nor
does what is written in files or stands where the scan does not look (`files_of_outline`).  Two
scans that succeed find the same names wherever there are files of the same names
(`eq_of_hasFile`), whatever else there is: links that lead nowhere, pipes and folders, names that
are not text, and all that is deeper.
-/

namespace PhotoTally.Scan

open FileSystem

variable {fs fs' : FileSystem} {folder folder' : Path} {depth : Nat} {accept : String → Bool}
  {trail : Trail} {names found found' : NameSet} {visits visits' : List Visit} {v : Visit}
  {arrange arrange' : List EntryName → List EntryName} {order order' : List Visit → List Visit}

/-! ## The order of the visits -/

/-- The scan of an album's folder, if folders list their names as `arrange` has them and the visits
then come in the order of `order`. -/
def filesBy (fs : FileSystem) (arrange : List EntryName → List EntryName)
    (order : List Visit → List Visit) (depth : Nat) (accept : String → Bool) (folder : Path) :
    Outcome NameSet :=
  if !fs.pathExists folder then do
    .note (.folderMissing folder)
    return .empty
  else if !fs.pathIsFolder folder then .fail (.io folder .notAlbumFolder)
  else match fs.traverse arrange depth folder with
    | .ok visits => filesOf accept (order visits) .empty
    | .error f => filesOf accept [.error f] .empty

theorem filesBy_listed (fs : FileSystem) (depth : Nat) (accept : String → Bool) (folder : Path) :
    filesBy fs EntryName.listed id depth accept folder = files fs depth accept folder := by
  unfold filesBy files
  cases fs.traverse EntryName.listed depth folder <;> rfl

/-- Scans of the same visits find the same, in whatever order these come. -/
theorem filesOf_of_mem_iff (hmem : ∀ v, v ∈ visits ↔ v ∈ visits')
    (h : (filesOf accept visits names).result = .ok found) :
    (filesOf accept visits' names).result = .ok found := by
  obtain ⟨hnone, hfound⟩ := filesOf_eq_ok h
  obtain ⟨found', h'⟩ : ∃ found', (filesOf accept visits' names).result = .ok found' :=
    exists_filesOf (fun v hv => hnone v ((hmem v).2 hv)) names
  obtain rfl : found' = found := by
    ext x
    rw [hfound, (filesOf_eq_ok h').2]
    simp only [hmem]
  exact h'

/-- In whatever order folders list their names, the same is visited. -/
theorem mem_visitsBelow_arranged (harrange : ∀ names n, n ∈ arrange names ↔ n ∈ names)
    (harrange' : ∀ names n, n ∈ arrange' names ↔ n ∈ names) :
    v ∈ fs.visitsBelow arrange depth trail folder ↔
      v ∈ fs.visitsBelow arrange' depth trail folder := by
  induction depth generalizing trail folder with
  | zero => rfl
  | succ depth ih =>
    cases hread : fs.readFolder folder with
    | error e => rw [visitsBelow_of_error hread, visitsBelow_of_error hread]
    | ok entries =>
      rw [mem_visitsBelow harrange hread, mem_visitsBelow harrange' hread]
      simp only [ih]

/-- Whether a folder can be entered is told by a traversal of no levels. -/
theorem traverse_of_isFolder (h : fs.pathIsFolder folder = true) :
    fs.traverse arrange depth folder =
      (fs.traverse id 0 folder).map fun _ => fs.visitsBelow arrange depth [] folder := by
  unfold pathIsFolder at h
  unfold FileSystem.traverse
  cases hstat : fs.stat folder with
  | error e => simp [hstat, Except.toOption] at h
  | ok entry =>
    obtain ⟨spot, node⟩ := entry
    have hfolder : node.isFolder = true := by simpa [hstat, Except.toOption] using h
    simp only [hfolder, Bool.not_true, Bool.false_eq_true, if_false]
    generalize (if fs.pathIsLink folder = true then checkLinked [] folder spot node
      else .ok ()) = entered
    cases entered <;> rfl

/-- A scan that succeeds finds the same in every order. -/
theorem filesBy_of_ok (harrange : ∀ names n, n ∈ arrange names ↔ n ∈ names)
    (harrange' : ∀ names n, n ∈ arrange' names ↔ n ∈ names)
    (horder : ∀ visits v, v ∈ order visits ↔ v ∈ visits)
    (horder' : ∀ visits v, v ∈ order' visits ↔ v ∈ visits)
    (h : (filesBy fs arrange order depth accept folder).result = .ok found) :
    (filesBy fs arrange' order' depth accept folder).result = .ok found := by
  unfold filesBy at h ⊢
  split_ifs at h ⊢ with hexists hfolder
  · exact h
  · exact h
  · have hfolder : fs.pathIsFolder folder = true := by simpa using hfolder
    rw [traverse_of_isFolder hfolder] at h ⊢
    cases hentered : fs.traverse id 0 folder with
    | error f =>
      rw [hentered] at h
      exact h
    | ok _ =>
      rw [hentered] at h
      refine filesOf_of_mem_iff (fun v => ?_) h
      rw [horder, horder', mem_visitsBelow_arranged harrange harrange']

theorem filesBy_eq_ok_iff (harrange : ∀ names n, n ∈ arrange names ↔ n ∈ names)
    (horder : ∀ visits v, v ∈ order visits ↔ v ∈ visits) :
    (filesBy fs arrange order depth accept folder).result = .ok found ↔
      (files fs depth accept folder).result = .ok found := by
  have hlisted (names : List EntryName) (n : EntryName) :
      n ∈ EntryName.listed names ↔ n ∈ names := EntryName.mem_listed
  have hid (visits : List Visit) (v : Visit) : v ∈ id visits ↔ v ∈ visits := Iff.rfl
  rw [← filesBy_listed]
  exact ⟨filesBy_of_ok harrange hlisted horder hid, filesBy_of_ok hlisted harrange hid horder⟩

/-! ## What is not looked at -/

/-- A scan finds the same where it finds the same outline wherever it looks. -/
theorem files_of_outline
    (h : fs.outlined.Agrees fs'.outlined (Look.Covered (fs.looksIn depth folder))) :
    files fs' depth accept folder = files fs depth accept folder := by
  have houtline (fs : FileSystem) : files fs.outlined depth accept folder =
      files fs depth accept folder := by
    unfold files
    rw [pathExists_outlined, pathIsFolder_outlined, traverse_outlined]
  rw [← looksIn_outlined] at h
  calc files fs' depth accept folder = files fs'.outlined depth accept folder := (houtline fs').symm
    _ = files fs.outlined depth accept folder := files_congr accept h
    _ = files fs depth accept folder := houtline fs

/-! ## What is no file -/

/-- Two scans that succeed find the same where there are files of the same names. -/
theorem eq_of_hasFile
    (h : ∀ n, n.text?.isSome →
      (fs.HasFile (depth + 1) folder n ↔ fs'.HasFile (depth + 1) folder' n))
    (hfound : (files fs (depth + 1) accept folder).result = .ok found)
    (hfound' : (files fs' (depth + 1) accept folder').result = .ok found') : found = found' := by
  ext x
  rw [mem_files_iff hfound, mem_files_iff hfound']
  refine exists_congr fun n => and_congr_left ?_
  rintro ⟨name, hname, -⟩
  exact h n (by rw [hname]; rfl)

/-- Whether all that was added below a folder, down to `depth` levels, is idle. -/
def AddsIdle (fs fs' : FileSystem) (folder : Path) (depth : Nat) : Prop :=
  ∀ R node names n added, fs.stat folder = .ok (some R, node) → names.length < depth →
    IsNew fs fs' (n :: (names.reverse ++ R)) → fs'.find? (n :: (names.reverse ++ R)) = some added →
      fs'.IsIdle (folder.below (names ++ [n])) added

/-- A scan succeeds and finds the same after idle nodes were added. -/
theorem files_of_idle (h : Enlarged fs fs' folder (depth + 1))
    (hidle : AddsIdle fs fs' folder (depth + 1)) (hstat : fs'.stat folder = fs.stat folder)
    (hfound : (files fs (depth + 1) accept folder).result = .ok found) :
    (files fs' (depth + 1) accept folder).result = .ok found := by
  have hadds : AddsOnly fs fs' folder [] (0 + (depth + 1)) (Uncounted accept fun _ => True) := by
    constructor
    · intro R node names n hroot _ hlevel hnew trail
      obtain ⟨added, hadded⟩ := Option.isSome_iff_exists.1 hnew.taken
      exact uncounted_of_idle (hidle R node names n added hroot (by omega) hnew hadded) hadded _ _
    · intro R node names n hroot _ hlevel hnew trail e hvisit hkind
      obtain ⟨added, hadded⟩ := Option.isSome_iff_exists.1 hnew.taken
      -- an idle entry is not visited as a folder
      rcases (hidle R node names n added hroot (by omega) hnew hadded).visit hadded trail with
        hother | herror
      · rw [hvisit] at hother
        obtain rfl := Except.ok.inj hother
        cases hkind
      · rw [hvisit] at herror
        cases herror
  obtain ⟨found', hfound', hsame⟩ := files_of_enlarged h (by simp) hadds hstat hfound
  obtain rfl : found' = found := NameSet.ext_mem fun x => hsame x trivial
  exact hfound'

/-! ## Both scans -/

/-- What the result of a scan does not depend on: the order in which folders list their names, what
files hold and what stands where the scan does not look; and, if it succeeds, whatever is no file
with a name that is text. -/
structure IsIndependent (fs : FileSystem) (depth : Nat) (accept : String → Bool) (folder : Path) :
    Prop where
  order : ∀ arrange order, (∀ names n, n ∈ arrange names ↔ n ∈ names) →
    (∀ visits v, v ∈ order visits ↔ v ∈ visits) → ∀ found,
      ((filesBy fs arrange order depth accept folder).result = .ok found ↔
        (files fs depth accept folder).result = .ok found)
  outline : ∀ fs', fs.outlined.Agrees fs'.outlined (Look.Covered (fs.looksIn depth folder)) →
    files fs' depth accept folder = files fs depth accept folder
  idle : ∀ fs', Enlarged fs fs' folder depth → AddsIdle fs fs' folder depth →
    fs'.stat folder = fs.stat folder → ∀ found,
      (files fs depth accept folder).result = .ok found →
        (files fs' depth accept folder).result = .ok found
  names : ∀ fs' folder',
    (∀ n, n.text?.isSome → (fs.HasFile depth folder n ↔ fs'.HasFile depth folder' n)) →
      ∀ found found', (files fs depth accept folder).result = .ok found →
        (files fs' depth accept folder').result = .ok found' → found = found'

theorem isIndependent_files (fs : FileSystem) (depth : Nat) (accept : String → Bool)
    (folder : Path) : IsIndependent fs (depth + 1) accept folder where
  order _ _ harrange horder _ := filesBy_eq_ok_iff harrange horder
  outline _ := files_of_outline
  idle _ henlarged hidle hstat _ := files_of_idle henlarged hidle hstat
  names _ _ h _ _ := eq_of_hasFile h

/-- A scan that succeeds has found exactly the base names of the raw files that are directly in the
folder, or of all files that are in it or in one of its subfolders, what links lead to included, if
their names are text.  So each raw file is also found among the pictures, and nothing else counts
for the result. -/
theorem scans_exact (fs : FileSystem) (folder : Path) :
    (∀ raw, (raws fs folder).result = .ok raw → ∀ x, x ∈ raw ↔
      ∃ n name, fs.HasEntry folder n .file ∧ n.text? = some name ∧ Photo.isRaw name = true ∧
        Photo.baseName? (.ofString name) = some x) ∧
    (∀ edited, (edits fs folder).result = .ok edited → ∀ x, x ∈ edited ↔
      ∃ n name, (fs.HasEntry folder n .file ∨ ∃ s, fs.HasEntry folder s .folder ∧
          fs.HasEntry (folder.join ⟨s.bytes⟩) n .file) ∧
        n.text? = some name ∧ Photo.baseName? (.ofString name) = some x) ∧
    (∀ raw edited, (raws fs folder).result = .ok raw → (edits fs folder).result = .ok edited →
      ∀ x ∈ raw, x ∈ edited) ∧
    IsIndependent fs 1 Photo.isRaw folder ∧ IsIndependent fs 2 (fun _ => true) folder := by
  have hraws {raw : NameSet} (h : (raws fs folder).result = .ok raw) (x : String) : x ∈ raw ↔
      ∃ n name, fs.HasEntry folder n .file ∧ n.text? = some name ∧ Photo.isRaw name = true ∧
        Photo.baseName? (.ofString name) = some x := by
    simp only [mem_files_iff h, zero_add, hasFile_one, CountsAs, exists_and_left]
  have hedits {edited : NameSet} (h : (edits fs folder).result = .ok edited) (x : String) :
      x ∈ edited ↔ ∃ n name, (fs.HasEntry folder n .file ∨ ∃ s, fs.HasEntry folder s .folder ∧
          fs.HasEntry (folder.join ⟨s.bytes⟩) n .file) ∧
        n.text? = some name ∧ Photo.baseName? (.ofString name) = some x := by
    simp only [mem_files_iff h, Nat.reduceAdd, hasFile_two, CountsAs, exists_and_left, true_and]
  refine ⟨fun raw => hraws, fun edited => hedits, fun raw edited hraw hedited x hx => ?_,
    isIndependent_files fs 0 _ folder, isIndependent_files fs 1 _ folder⟩
  obtain ⟨n, name, hfile, hname, -, hbase⟩ := (hraws hraw x).1 hx
  exact (hedits hedited x).2 ⟨n, name, .inl hfile, hname, hbase⟩

/-- An album with a raw file, a link to a file, a link that leads nowhere, a pipe, and a subfolder
whose name is not text. -/
def mixedAlbum : FileSystem :=
  let unnamed := Text.bytes "/album/" ++ [255]
  ((((((FileSystem.ofPaths ["/album", "/else"] ["/album/A.NEF", "/else/real.bin"]).put
    (Path.ofString "/album/L.NEF").place (.link (.ofString "/else/real.bin"))).put
    (Path.ofString "/album/gone.NEF").place (.link (.ofString "/nowhere"))).put
    (Path.ofString "/album/P.NEF").place (.pipe Mode.plainFile)).put
    (Path.mk unnamed).place (.folder Mode.plainFolder)).put
    (Path.mk (unnamed ++ Text.bytes "/B.jpg")).place (.file Mode.plainFile .empty)).put
    (Path.mk (unnamed ++ Text.bytes "/deeper")).place (.folder Mode.plainFolder)

/-- The album with something written to its raw file. -/
def rewrittenAlbum : FileSystem :=
  mixedAlbum.put (Path.ofString "/album/A.NEF").place (.file Mode.plainFile "raw".toUTF8)

theorem scans_exact_mixedAlbum :
    let folder := Path.ofString "/album"
    (raws mixedAlbum folder).result = .ok (.ofList ["A", "L"]) ∧
      (edits mixedAlbum folder).result = .ok (.ofList ["A", "B", "L"]) ∧
      (∃ n name, mixedAlbum.HasEntry folder n .file ∧ n.text? = some name ∧
        Photo.isRaw name = true ∧ Photo.baseName? (.ofString name) = some "L") ∧
      (filesBy mixedAlbum List.reverse List.reverse 1 Photo.isRaw folder).result =
        .ok (.ofList ["A", "L"]) ∧
      edits rewrittenAlbum folder = edits mixedAlbum folder := by
  intro folder
  have hruns : (raws mixedAlbum folder).result = .ok (.ofList ["A", "L"]) ∧
      (edits mixedAlbum folder).result = .ok (.ofList ["A", "B", "L"]) ∧
      mixedAlbum.find? (Path.ofString "/album/A.NEF").place =
        some (.file Mode.plainFile .empty) ∧
      (Path.ofString "/album/A.NEF").place ≠ [] := by
    decide +kernel
  obtain ⟨hraws, hedits, hfile, hplace⟩ := hruns
  obtain ⟨hraw, -, -, hraws', hedits'⟩ := scans_exact mixedAlbum folder
  have hsame : rewrittenAlbum.outlined = mixedAlbum.outlined :=
    mixedAlbum.outlined_put_file hplace hfile _
  refine ⟨hraws, hedits, (hraw _ hraws "L").1 (by simp), ?_, ?_⟩
  · exact (hraws'.order _ _ (fun _ _ => List.mem_reverse) (fun _ _ => List.mem_reverse) _).2 hraws
  · refine hedits'.outline _ ?_
    rw [hsame]
    exact ⟨rfl, rfl, fun _ _ => rfl⟩

end PhotoTally.Scan
