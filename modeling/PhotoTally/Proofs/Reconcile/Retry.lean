import PhotoTally.Proofs.Reconcile.Sets

/-!
# An album that is tried again

An attempt at an album that fails has left the ledger as it was, or has recorded the raw files of
the album and nothing else (`album_eq_error`).  So attempts come to a recording of the raw scans
that succeeded (`afterAttempts_eq`).  If these all show the same files, the first that succeeds as a
whole ends as if it were the only one; otherwise no file that was seen is forgotten
(`album_retried`).
-/

namespace PhotoTally.Reconcile

open Ledger (Appends)

variable {fs : FileSystem} {c : Config} {l : Ledger} {year name : String} {f : Failure}
  {attempts : List FileSystem}

/-! ## One attempt -/

/-- The raw files that a scan of an album shows, if it succeeds. -/
def rawScan? (c : Config) (year name : String) (fs : FileSystem) : Option NameSet :=
  (Scan.raws fs (albumFolder c.source year name)).result.toOption

/-- An attempt records the raw scan if that succeeds, however it goes on. -/
theorem fst_album (fs : FileSystem) (c : Config) (l : Ledger) (year name : String) :
    (album fs c l year name).1 = (rawScan? c year name fs).elim l (l.update year name) := by
  unfold rawScan?
  cases hraw : (Scan.raws fs (albumFolder c.source year name)).result with
  | error f =>
    unfold album
    simp only [hraw]
    rfl
  | ok raw => exact ledger_album hraw

/-- An attempt that fails does so in the raw scan, with the ledger untouched, or in the scan of the
pictures, with the raw scan recorded. -/
theorem album_eq_error (h : (album fs c l year name).2.result = .error f) :
    ((Scan.raws fs (albumFolder c.source year name)).result = .error f ∧
        (album fs c l year name).1 = l) ∨
      ∃ raw, (Scan.raws fs (albumFolder c.source year name)).result = .ok raw ∧
        (Scan.edits fs (albumFolder c.dest year name)).result = .error f ∧
        (album fs c l year name).1 = l.update year name raw := by
  rw [fst_album, rawScan?]
  rw [result_album] at h
  cases hraw : (Scan.raws fs (albumFolder c.source year name)).result with
  | error g =>
    rw [hraw] at h
    obtain rfl := Except.error.inj h
    exact .inl ⟨rfl, rfl⟩
  | ok raw =>
    rw [hraw] at h
    cases hedit : (Scan.edits fs (albumFolder c.dest year name)).result with
    | error g =>
      rw [hedit] at h
      obtain rfl := Except.error.inj h
      exact .inr ⟨raw, rfl, rfl, rfl⟩
    | ok edited =>
      rw [hedit] at h
      cases h

/-- An attempt ends alike with two ledgers if its raw scan makes one of both. -/
theorem album_eq_of_update_eq {l₂ : Ledger} {raw : NameSet}
    (hraw : (Scan.raws fs (albumFolder c.source year name)).result = .ok raw)
    (h : l₂.update year name raw = l.update year name raw) :
    album fs c l₂ year name = album fs c l year name := by
  have hrecord : l₂.record year name raw = l.record year name raw := by
    rw [Ledger.record_eq_names, h, ← Ledger.record_eq_names]
  unfold album
  simp only [hraw, hrecord]

/-! ## Several attempts -/

/-- The ledger after attempts at an album, each of them over the folders that it finds. -/
def afterAttempts (c : Config) (year name : String) (l : Ledger) (attempts : List FileSystem) :
    Ledger :=
  attempts.foldl (fun l fs => (album fs c l year name).1) l

/-- The raw scans of attempts that succeed, in the order of the attempts. -/
def rawScans (c : Config) (year name : String) (attempts : List FileSystem) : List NameSet :=
  attempts.filterMap (rawScan? c year name)

/-- Attempts come to the recording of their raw scans. -/
theorem afterAttempts_eq (c : Config) (year name : String) (l : Ledger)
    (attempts : List FileSystem) :
    afterAttempts c year name l attempts =
      l.recordAll ((rawScans c year name attempts).map (.mk year name)) := by
  induction attempts generalizing l with
  | nil => rfl
  | cons fs rest ih =>
    have hrest : afterAttempts c year name l (fs :: rest) = _ :=
      ih (album fs c l year name).1
    rw [hrest, fst_album, rawScans, rawScans, List.filterMap_cons]
    cases rawScan? c year name fs <;> rfl

/-- Recordings of one album are of this album. -/
theorem scansOf_recordings (year name : String) (scans : List NameSet) :
    Ledger.scansOf year name (scans.map (.mk year name)) = scans := by
  unfold Ledger.scansOf
  rw [List.filter_eq_self.2 (by simp), List.map_map]
  exact List.map_id scans

theorem scansOf_recordings_of_ne {y a : String} (h : ¬ (y = year ∧ a = name))
    (scans : List NameSet) : Ledger.scansOf y a (scans.map (.mk year name)) = [] := by
  rw [Ledger.scansOf_eq_nil_iff, List.forall_mem_map]
  exact fun _ _ hkey => h ⟨hkey.1.symm, hkey.2.symm⟩

/-- Recording a scan once more makes no difference to having recorded it only at the end. -/
theorem update_recordAll_of_eq {raw : NameSet} {scans : List NameSet}
    (h : ∀ scan ∈ scans, scan = raw) :
    (l.recordAll (scans.map (.mk year name))).update year name raw = l.update year name raw := by
  induction scans generalizing l with
  | nil => rfl
  | cons scan rest ih =>
    obtain ⟨rfl, hrest⟩ := List.forall_mem_cons.1 h
    have hmem : Ledger.Recording.mk year name scan ∈ [⟨year, name, scan⟩] :=
      List.mem_singleton_self _
    have honce : (l.update year name scan).update year name scan = l.update year name scan :=
      Ledger.update_of_mem hmem
    exact (@ih (l.update year name scan) hrest).trans honce

/-- An attempt that fails leaves the ledger as it was or with the raw scan recorded.  After any
attempts, failed or not, one that succeeds ends exactly as it would have without them if all raw
scans show the same files.  If they do not, the album has the names that it had at first and behind
them the new ones of each raw scan, in the order of the attempts, and no other album has changed. -/
theorem album_retried (c : Config) (l : Ledger) (year name : String) :
    (∀ fs f, (album fs c l year name).2.result = .error f →
      ((Scan.raws fs (albumFolder c.source year name)).result = .error f ∧
          (album fs c l year name).1 = l) ∨
        ∃ raw, (Scan.raws fs (albumFolder c.source year name)).result = .ok raw ∧
          (Scan.edits fs (albumFolder c.dest year name)).result = .error f ∧
          (album fs c l year name).1 = l.update year name raw) ∧
    ∀ attempts last counts,
      (album last c (afterAttempts c year name l attempts) year name).2.result = .ok counts →
      ∃ raw final, (Scan.raws last (albumFolder c.source year name)).result = .ok raw ∧
        (album last c (afterAttempts c year name l attempts) year name).1 = final ∧
        ((∀ scan ∈ rawScans c year name attempts, scan = raw) →
          (album last c l year name).2.result = .ok counts ∧
            (album last c l year name).1 = final) ∧
        Appends (l.names year name) (rawScans c year name attempts ++ [raw])
          (final.names year name) ∧
        (∀ scan ∈ rawScans c year name attempts, ∀ n ∈ scan, n ∈ final.names year name) ∧
        ∀ y a, ¬ (y = year ∧ a = name) → final.album? y a = l.album? y a := by
  refine ⟨fun fs f h => album_eq_error h, fun attempts last counts h => ?_⟩
  obtain ⟨raw, edited, hraw, -, -⟩ := album_eq_ok_iff.1 h
  let scans := rawScans c year name attempts ++ [raw]
  have hfinal : (album last c (afterAttempts c year name l attempts) year name).1 =
      l.recordAll (scans.map (.mk year name)) := by
    rw [ledger_album hraw, afterAttempts_eq, List.map_append, Ledger.recordAll_append]
    rfl
  have happends := Ledger.appends_foldl (l.names year name) scans
  have hnames : (l.recordAll (scans.map (.mk year name))).names year name =
      scans.foldl Ledger.extend (l.names year name) := by
    rw [Ledger.names_recordAll, scansOf_recordings]
  rw [← hnames] at happends
  refine ⟨raw, _, hraw, hfinal, fun hsame => ?_, happends, fun scan hscan n hn => ?_,
    fun y a hya => ?_⟩
  · have hrecord : (afterAttempts c year name l attempts).update year name raw =
        l.update year name raw := by
      rw [afterAttempts_eq]
      exact update_recordAll_of_eq hsame
    rw [album_eq_of_update_eq hraw hrecord] at h hfinal
    exact ⟨h, hfinal⟩
  · exact happends.mem_iff.2 (.inr ⟨scan, List.mem_append_left _ hscan, hn⟩)
  · rw [Ledger.album?_recordAll, if_pos (scansOf_recordings_of_ne hya scans)]

/-- An album whose folder is a file, so that its raw files cannot be scanned. -/
def withoutRaws : FileSystem := .ofPaths ["/raws", "/raws/2023", "/edits"] ["/raws/2023/Trip"]

/-- An album with one raw file, whose folder of pictures is a file. -/
def withoutPictures : FileSystem :=
  .ofPaths ["/raws", "/raws/2023", "/raws/2023/Trip", "/edits", "/edits/2023"]
    ["/raws/2023/Trip/A.NEF", "/edits/2023/Trip"]

/-- An album with one raw file and pictures of two. -/
def withPictures (raw : String) : FileSystem :=
  .ofPaths ["/raws", "/raws/2023", "/raws/2023/Trip", "/edits", "/edits/2023", "/edits/2023/Trip"]
    ["/raws/2023/Trip/" ++ raw, "/edits/2023/Trip/A.jpg", "/edits/2023/Trip/B.jpg"]

/-- The ledger after the two attempts that fail. -/
def afterFailures : Ledger :=
  afterAttempts halfEditedRoots "2023" "Trip" .empty [withoutRaws, withoutPictures]

theorem album_retried_twice :
    (album withoutRaws halfEditedRoots .empty "2023" "Trip").2.failure?.isSome ∧
      (album withoutPictures halfEditedRoots .empty "2023" "Trip").2.failure?.isSome ∧
      (album (withPictures "A.NEF") halfEditedRoots afterFailures "2023" "Trip").2.result =
        .ok ⟨"Trip", 1, 1, 0⟩ ∧
      (album (withPictures "A.NEF") halfEditedRoots .empty "2023" "Trip").2.result =
        .ok ⟨"Trip", 1, 1, 0⟩ := by
  have hok : (album (withPictures "A.NEF") halfEditedRoots afterFailures "2023" "Trip").2.result =
      .ok ⟨"Trip", 1, 1, 0⟩ := by decide +kernel
  have hscans : rawScans halfEditedRoots "2023" "Trip" [withoutRaws, withoutPictures] =
      [.ofList ["A"]] := by decide +kernel
  have hlast : (Scan.raws (withPictures "A.NEF")
      (albumFolder halfEditedRoots.source "2023" "Trip")).result = .ok (.ofList ["A"]) := by
    decide +kernel
  obtain ⟨raw, final, hraw, -, hsame, -⟩ :=
    (album_retried halfEditedRoots .empty "2023" "Trip").2 _ _ _ hok
  obtain rfl := Except.ok.inj (hlast.symm.trans hraw)
  refine ⟨by decide +kernel, by decide +kernel, hok, (hsame fun scan hscan => ?_).1⟩
  rw [hscans] at hscan
  exact List.mem_singleton.1 hscan

/-- Where another raw file has taken the place of the first, both are counted in the end. -/
example :
    (album (withPictures "B.NEF") halfEditedRoots afterFailures "2023" "Trip").2.result =
        .ok ⟨"Trip", 2, 1, 1⟩ ∧
      (album (withPictures "B.NEF") halfEditedRoots afterFailures "2023" "Trip").1.names
        "2023" "Trip" = ["A", "B"] := by
  decide +kernel

end PhotoTally.Reconcile
