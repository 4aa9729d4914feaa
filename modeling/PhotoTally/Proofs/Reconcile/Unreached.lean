import PhotoTally.Ledger.Format
import PhotoTally.Proofs.FileSystem.Change
import PhotoTally.Proofs.Reconcile.Meaning
import PhotoTally.Proofs.Scan.Files

/-!
# Albums whose folder is not reached

A scan takes a path that cannot be followed for an empty folder, and a run then counts no edited
picture for the album (`row_reached`).  So a link that leads back to itself, a file in the place of
a folder and a name that is too long go unnoticed, just as a folder that is not there
(`scans_unreached`, `loops_count_as_empty`).
-/

namespace PhotoTally

/-! ## Folders that were read, and folders that are not there -/

namespace FileSystem

variable {fs : FileSystem} {path : Path}

/-- A folder at the end of a path that cannot be followed is not read. -/
theorem not_canRead_of_stat {e : IoFault} (h : fs.stat path = .error e) : ¬ fs.CanRead path := by
  rintro ⟨found, hread⟩
  unfold readFolder at hread
  rw [h] at hread
  cases hread

/-- What is not read is absent exactly if the path fails for no other reason. -/
theorem canRead_or_isAbsent_iff (h : fs.CanRead path ∨ ∃ e, fs.stat path = .error e) :
    fs.CanRead path ∨ fs.IsAbsent path ↔ ∀ e, fs.stat path = .error e → e = .os .notFound := by
  constructor
  · rintro hreached e hstat
    have habsent := hreached.resolve_left (not_canRead_of_stat hstat)
    exact Except.error.inj (hstat.symm.trans habsent)
  · intro honly
    rcases h with hread | ⟨e, hstat⟩
    · exact .inl hread
    · obtain rfl := honly e hstat
      exact .inr hstat

end FileSystem

namespace Reconcile

variable {fs : FileSystem} {c : Config} {l l' : Ledger} {r : Report}

/-! ## The rows of a run -/

/-- Without pictures no name counts as edited. -/
theorem edited_count_empty (album : String) (recorded : List String) (raw : NameSet) :
    (AlbumCounts.count album recorded raw .empty).edited = 0 := by
  show recorded.countP (fun n => n ∈ raw ∧ n ∈ NameSet.empty) = 0
  rw [List.countP_eq_zero]
  intro n _
  simp

/-- The folder of each row's pictures was read, or its path could not be followed and no picture is
counted. -/
theorem row_reached (h : (run fs c l).result = .ok (l', r)) {y : YearReport} (hy : y ∈ r.years)
    {row : AlbumCounts} (hrow : row ∈ y.albums) :
    fs.CanRead (albumFolder c.dest y.year row.album) ∨
      row.edited = 0 ∧ ∃ e, fs.stat (albumFolder c.dest y.year row.album) = .error e := by
  obtain ⟨raw, edited, -, hedit, hcount⟩ := ((describes_of_run h).accounts y hy).counts row hrow
  obtain hread | ⟨rfl, hstat⟩ := Scan.reached_of_files hedit
  · exact .inl hread
  · rw [hcount]
    exact .inr ⟨edited_count_empty _ _ _, hstat⟩

/-- What the scans make of a path that does not lead to a folder which can be read: nothing if the
path cannot be followed, a failure otherwise.  The folders that count as empty are the missing ones
exactly if no path fails for another reason, and so it is for the rows of a run. -/
theorem scans_unreached (fs : FileSystem) :
    (∀ scan ∈ [Scan.raws fs, Scan.edits fs], ∀ folder,
      (∀ e, fs.stat folder = .error e → (scan folder).result = .ok .empty) ∧
      (∀ found, fs.stat folder = .ok found → ¬ fs.CanRead folder →
        ∃ f, (scan folder).result = .error f) ∧
      ((∀ names, (scan folder).result = .ok names → fs.CanRead folder ∨ fs.IsAbsent folder) ↔
        ∀ e, fs.stat folder = .error e → e = .os .notFound)) ∧
    ∀ c l l' r, (run fs c l).result = .ok (l', r) → ∀ y ∈ r.years, ∀ row ∈ y.albums,
      (fs.CanRead (albumFolder c.dest y.year row.album) ∨
        row.edited = 0 ∧ ∃ e, fs.stat (albumFolder c.dest y.year row.album) = .error e) ∧
      (fs.CanRead (albumFolder c.dest y.year row.album) ∨
          fs.IsAbsent (albumFolder c.dest y.year row.album) ↔
        ∀ e, fs.stat (albumFolder c.dest y.year row.album) = .error e → e = .os .notFound) := by
  constructor
  · intro scan hscan folder
    obtain ⟨depth, accept, rfl⟩ : ∃ depth accept, scan = Scan.files fs (depth + 1) accept := by
      rcases List.mem_pair.1 hscan with rfl | rfl
      · exact ⟨0, Photo.isRaw, rfl⟩
      · exact ⟨1, fun _ => true, rfl⟩
    refine ⟨fun e hstat => Scan.files_of_stat_error hstat,
      fun found hstat hread => Scan.exists_failure_of_reached hstat hread, ?_, ?_⟩
    · intro h e hstat
      have hok : (Scan.files fs (depth + 1) accept folder).result = .ok .empty :=
        Scan.files_of_stat_error hstat
      exact (FileSystem.canRead_or_isAbsent_iff (.inr ⟨e, hstat⟩)).1 (h _ hok) e hstat
    · intro honly names hok
      have hreached := (Scan.reached_of_files hok).imp_right (·.2)
      exact (FileSystem.canRead_or_isAbsent_iff hreached).2 honly
  · intro c l l' r hrun y hy row hrow
    have hrow := row_reached hrun hy hrow
    exact ⟨hrow, FileSystem.canRead_or_isAbsent_iff (hrow.imp_right (·.2))⟩

/-- Two albums of which each has a raw file.  The pictures of one are behind a link that leads back
to itself, those of the other would be in a folder that is a file. -/
def unreachable : FileSystem :=
  (FileSystem.ofPaths ["/raws", "/raws/2023", "/raws/2023/Trip", "/raws/2024", "/raws/2024/Hike",
      "/edits", "/edits/2023"]
    ["/raws/2023/Trip/A.NEF", "/raws/2024/Hike/B.NEF", "/edits/2024"]).put
      (Path.ofString "/edits/2023/Trip").place (.link (.ofString "Trip"))

def overUnreachable : Config where
  source := .ofString "/raws"
  dest := .ofString "/edits"
  ledger := .ofString "/counts.json"
  output := .ofString "/photo_data.js"
  format := .json

/-- What a run returns that has not reached the pictures of either album. -/
def unreachableCounts : Ledger × Report :=
  (.ofDocument [("2023", [("Trip", ["A"])]), ("2024", [("Hike", ["B"])])],
    ⟨[⟨"2023", [⟨"Trip", 1, 0, 0⟩]⟩, ⟨"2024", [⟨"Hike", 1, 0, 0⟩]⟩]⟩)

/-- A folder that is behind a loop, below a file or behind a name that is too long counts as empty,
and the run ends well. -/
theorem loops_count_as_empty :
    let long := albumFolder (.ofString "/edits") "2023" (String.ofList (List.replicate 256 'a'))
    (run unreachable overUnreachable .empty).result = .ok unreachableCounts ∧
      unreachable.stat (albumFolder overUnreachable.dest "2023" "Trip") =
        .error (.os .tooManyLinks) ∧
      unreachable.stat (albumFolder overUnreachable.dest "2024" "Hike") =
        .error (.os .notFolder) ∧
      unreachable.stat long = .error (.os .nameTooLong) ∧
      (Scan.raws unreachable long).result = .ok .empty ∧
      (Scan.edits unreachable long).result = .ok .empty := by
  decide +kernel

theorem scans_unreached_loop :
    (run unreachable overUnreachable .empty).result = .ok unreachableCounts ∧
      unreachable.stat (.ofString "/edits/2023/Trip") = .error (.os .tooManyLinks) ∧
      (Scan.edits unreachable (.ofString "/edits/2023/Trip")).result = .ok .empty ∧
      ¬ (unreachable.CanRead (albumFolder overUnreachable.dest "2023" "Trip") ∨
        unreachable.IsAbsent (albumFolder overUnreachable.dest "2023" "Trip")) := by
  have hrun : (run unreachable overUnreachable .empty).result = .ok unreachableCounts := by
    decide +kernel
  have hstat : unreachable.stat (.ofString "/edits/2023/Trip") = .error (.os .tooManyLinks) := by
    decide +kernel
  have hfolder : albumFolder overUnreachable.dest "2023" "Trip" = .ofString "/edits/2023/Trip" := by
    decide +kernel
  obtain ⟨hscans, hrows⟩ := scans_unreached unreachable
  refine ⟨hrun, hstat, (hscans _ (by simp) _).1 _ hstat, fun h => ?_⟩
  have hrow := (hrows overUnreachable .empty _ _ hrun ⟨"2023", [⟨"Trip", 1, 0, 0⟩]⟩ (by simp)
    ⟨"Trip", 1, 0, 0⟩ (by simp)).2
  have := hrow.1 h (.os .tooManyLinks) (by rw [hfolder]; exact hstat)
  cases this

end Reconcile

end PhotoTally
