import PhotoTally.Proofs.FileSystem.Change
import PhotoTally.Proofs.Ledger.Albums
import PhotoTally.Proofs.Reconcile.Meaning

/-!
# What the totals of a report leave out

A report has rows for the albums that are listed now; the ledger has every album ever seen.  So the
names of an album whose folder is gone are in the ledger's count but in neither total of the report
(`total_add_unlisted`, `deleted_add_unlisted`).  Over a sequence of runs the totals keep up with the
ledger exactly if every album with a name is still listed (`totals_keep_up_iff`).
-/

namespace PhotoTally

namespace Reconcile

variable {fs : FileSystem} {c : Config} {l l' : Ledger} {r : Report} {year album : String}

/-! ## Listed albums -/

/-- Whether the listings of a run lead to an album. -/
def isListed (fs : FileSystem) (c : Config) (k : String × String) : Bool :=
  (listed fs c.source).contains k.1 && (listed fs (yearFolder c k.1)).contains k.2

theorem mem_listed_iff {folder : Path} {names : List String} {name : String}
    (h : (Scan.subfolders fs folder).result = .ok names) :
    name ∈ listed fs folder ↔ fs.HasSubfolder folder name := by
  rw [listed, h]
  exact Scan.mem_subfolders h name

theorem isListed_iff (h : (run fs c l).result = .ok (l', r)) :
    isListed fs c (year, album) ↔ Visits fs c year album := by
  obtain ⟨years, hyears, hall⟩ := run_isOk_iff.1 ⟨_, h⟩
  unfold isListed Visits
  rw [Bool.and_eq_true, List.contains_iff_mem, List.contains_iff_mem, mem_listed_iff hyears,
    ← Scan.mem_subfolders hyears]
  refine and_congr_right fun hyear => ?_
  obtain ⟨albums, halbums, -⟩ := hall year hyear
  exact mem_listed_iff halbums

/-- The raw names that a run sees in an album, none if it does not come there. -/
def seen (fs : FileSystem) (c : Config) (k : String × String) : NameSet :=
  if isListed fs c k then
    (Scan.raws fs (albumFolder c.source k.1 k.2)).result.toOption.getD .empty
  else .empty

/-- The number of recorded names that a run does not see. -/
def vanished (fs : FileSystem) (c : Config) (l : Ledger) : Nat :=
  (l.albums.map fun k => (l.names k.1 k.2).countP fun n => n ∉ seen fs c k).sum

/-- The number of recorded names whose album is not listed. -/
def unlisted (fs : FileSystem) (c : Config) (l : Ledger) : Nat :=
  ((l.albums.filter fun k => !isListed fs c k).map fun k => (l.names k.1 k.2).length).sum

theorem unlisted_eq_zero_iff :
    unlisted fs c l = 0 ↔
      ∀ year album n, n ∈ l.names year album → isListed fs c (year, album) := by
  unfold unlisted
  rw [List.sum_eq_zero_iff_forall_eq_nat, List.forall_mem_map]
  simp only [List.mem_filter, Bool.not_eq_true', and_imp, Prod.forall, List.length_eq_zero_iff]
  constructor
  · intro h year album n hn
    by_contra hnot
    rw [h year album (Ledger.mem_albums_of_mem_names hn) (by simpa using hnot)] at hn
    cases hn
  · intro h year album _ hnot
    refine List.eq_nil_iff_forall_not_mem.2 fun n hn => ?_
    rw [h year album n hn] at hnot
    cases hnot

/-! ## Totals -/

/-- Year and album of each row. -/
def rowKeys (r : Report) : List (String × String) :=
  r.years.flatMap fun y => y.albums.map fun row => (y.year, row.album)

theorem nodup_rowKeys (h : Describes fs c l l' r) : (rowKeys r).Nodup := by
  unfold rowKeys
  refine List.nodup_flatMap.2 ⟨fun y hy => ?_, ?_⟩
  · have hnames := Text.nodup_of_ascending (h.accounts y hy).ascending
    have := hnames.map (Prod.mk_right_injective y.year)
    rwa [List.map_map] at this
  · have hyears := Text.nodup_of_ascending h.years_ascending
    refine (List.pairwise_map.1 hyears).imp fun {y z} hne => ?_
    simp only [Function.onFun, List.disjoint_left, List.mem_map, not_exists, not_and]
    rintro _ ⟨row, -, rfl⟩ other - heq
    exact hne (Prod.mk.inj heq).1.symm

theorem mem_rowKeys (h : Describes fs c l l' r) :
    (year, album) ∈ rowKeys r ↔ Visits fs c year album := by
  unfold rowKeys Visits
  simp only [List.mem_flatMap, List.mem_map, Prod.mk.injEq]
  constructor
  · rintro ⟨y, hy, row, hrow, rfl, rfl⟩
    exact ⟨(h.mem_years _).1 (List.mem_map_of_mem hy),
      ((h.accounts y hy).mem_albums _).1 (List.mem_map_of_mem hrow)⟩
  · rintro ⟨hyear, halbum⟩
    obtain ⟨y, hy, rfl⟩ := List.mem_map.1 ((h.mem_years year).2 hyear)
    obtain ⟨row, hrow, rfl⟩ := List.mem_map.1 (((h.accounts y hy).mem_albums album).2 halbum)
    exact ⟨y, hy, row, hrow, rfl, rfl⟩

/-- The rows stand for the recorded albums that are listed. -/
theorem rowKeys_perm (h : (run fs c l).result = .ok (l', r)) :
    (rowKeys r).Perm (l'.albums.filter (isListed fs c)) := by
  have hdescribes := describes_of_run h
  refine (List.perm_ext_iff_of_nodup (nodup_rowKeys hdescribes)
    (l'.nodup_albums.filter _)).2 ?_
  rintro ⟨year, album⟩
  rw [mem_rowKeys hdescribes, List.mem_filter, isListed_iff h]
  refine ⟨fun hvisits => ⟨?_, hvisits⟩, fun hmem => hmem.2⟩
  obtain ⟨raw, now, -, hnow, -⟩ := hdescribes.recorded year album hvisits
  exact Ledger.mem_albums_iff.2 ⟨now, hnow⟩

/-- A sum over the rows is one over the recorded albums that are listed. -/
theorem sum_rows (h : (run fs c l).result = .ok (l', r)) {f : AlbumCounts → Nat}
    {g : String × String → Nat}
    (hfg : ∀ y ∈ r.years, ∀ row ∈ y.albums, f row = g (y.year, row.album)) :
    (r.albums.map f).sum = ((l'.albums.filter (isListed fs c)).map g).sum := by
  have hmap : r.albums.map f = (rowKeys r).map g := by
    unfold Report.albums rowKeys
    rw [List.map_flatMap, List.map_flatMap]
    refine List.flatMap_congr fun y hy => ?_
    rw [List.map_map]
    exact List.map_congr_left fun row hrow => hfg y hy row hrow
  rw [hmap]
  exact ((rowKeys_perm h).map g).sum_eq

theorem sum_listed_add (l : Ledger) (g : String × String → Nat) :
    ((l.albums.filter (isListed fs c)).map g).sum +
      ((l.albums.filter fun k => !isListed fs c k).map g).sum = (l.albums.map g).sum := by
  rw [← List.sum_append, ← List.map_append]
  exact ((List.filter_append_perm _ _).map g).sum_eq

/-- The names of the albums that are not listed are missing in the report's total. -/
theorem total_add_unlisted (h : (run fs c l).result = .ok (l', r)) :
    r.totals.total + unlisted fs c l' = l'.fileCount := by
  have hrows : r.totals.total =
      ((l'.albums.filter (isListed fs c)).map fun k => (l'.names k.1 k.2).length).sum :=
    sum_rows h (describes_of_run h).total
  rw [hrows, Ledger.fileCount_eq]
  exact sum_listed_add l' _

/-- They are missing in its count of deleted names as well. -/
theorem deleted_add_unlisted (h : (run fs c l).result = .ok (l', r)) :
    r.totals.deleted + unlisted fs c l' = vanished fs c l' := by
  have hdescribes := describes_of_run h
  have hrows : r.totals.deleted = ((l'.albums.filter (isListed fs c)).map fun k =>
      (l'.names k.1 k.2).countP fun n => n ∉ seen fs c k).sum := by
    refine sum_rows h fun y hy row hrow => ?_
    obtain ⟨raw, edited, hraw, -, hcount⟩ := (hdescribes.accounts y hy).counts row hrow
    have hlisted : isListed fs c (y.year, row.album) := by
      rw [isListed_iff h, ← mem_rowKeys hdescribes]
      exact List.mem_flatMap.2 ⟨y, hy, List.mem_map_of_mem hrow⟩
    have hseen : seen fs c (y.year, row.album) = raw := by
      rw [seen, if_pos hlisted, hraw]
      rfl
    rw [hseen, hcount]
    rfl
  have hunlisted : unlisted fs c l' = ((l'.albums.filter fun k => !isListed fs c k).map fun k =>
      (l'.names k.1 k.2).countP fun n => n ∉ seen fs c k).sum := by
    unfold unlisted
    congr 1
    refine List.map_congr_left fun k hk => ?_
    have hnot : ¬ isListed fs c k := by simpa using (List.mem_filter.1 hk).2
    symm
    rw [seen, if_neg hnot, List.countP_eq_length]
    simp
  rw [hrows, hunlisted]
  exact sum_listed_add l' _

/-- A report has no more names and albums than the ledger has. -/
theorem totals_le (h : (run fs c l).result = .ok (l', r)) :
    r.totals.total ≤ l'.fileCount ∧ r.totals.albums ≤ l'.albumCount := by
  refine ⟨?_, ?_⟩
  · rw [← total_add_unlisted h]
    exact Nat.le_add_right _ _
  · have hrows : (rowKeys r).length = r.totals.albums := by
      unfold rowKeys Report.totals Report.albums
      simp
    rw [← hrows, (rowKeys_perm h).length_eq, Ledger.albumCount_eq]
    exact List.length_filter_le _ _

/-! ## Sequences of runs -/

theorem Grows.length_names_le {P : String → String → Prop} (h : Grows fs c P l l') :
    (l.names year album).length ≤ (l'.names year album).length := by
  by_cases hP : P year album
  · obtain ⟨raw, -, hnow⟩ := h.recorded _ _ hP
    have hnames : l'.names year album = Ledger.extend (l.names year album) raw := by
      rw [Ledger.names, hnow]
      rfl
    rw [hnames, Ledger.extend, List.length_append]
    omega
  · rw [h.names_kept hP]

theorem Grows.mem_albums {P : String → String → Prop} (h : Grows fs c P l l')
    (hmem : (year, album) ∈ l.albums) : (year, album) ∈ l'.albums := by
  rw [Ledger.mem_albums_iff] at *
  by_cases hP : P year album
  · obtain ⟨raw, -, hnow⟩ := h.recorded _ _ hP
    exact ⟨_, hnow⟩
  · rwa [h.kept _ _ hP]

theorem Grows.fileCount_le {P : String → String → Prop} (h : Grows fs c P l l') :
    l.fileCount ≤ l'.fileCount := by
  rw [Ledger.fileCount_eq, Ledger.fileCount_eq, ← List.sum_toFinset _ l.nodup_albums,
    ← List.sum_toFinset _ l'.nodup_albums]
  calc ∑ k ∈ l.albums.toFinset, (l.names k.1 k.2).length
      ≤ ∑ k ∈ l.albums.toFinset, (l'.names k.1 k.2).length :=
        Finset.sum_le_sum fun _ _ => h.length_names_le
    _ ≤ ∑ k ∈ l'.albums.toFinset, (l'.names k.1 k.2).length := by
        refine Finset.sum_le_sum_of_subset fun k hk => ?_
        rw [List.mem_toFinset] at *
        exact h.mem_albums hk

/-- A run with the folders that it finds and what it returns. -/
structure Round where
  fs : FileSystem
  config : Config
  ledger : Ledger
  report : Report

/-- Whether runs succeed one after the other, each from the ledger that the one before returned. -/
def Succeed : Ledger → List Round → Prop
  | _, [] => True
  | l, k :: rest =>
    (run k.fs k.config l).result = .ok (k.ledger, k.report) ∧ Succeed k.ledger rest

instance decidableSucceed : (l : Ledger) → (rounds : List Round) → Decidable (Succeed l rounds)
  | _, [] => .isTrue trivial
  | _, k :: rest =>
    have := decidableSucceed k.ledger rest
    inferInstanceAs (Decidable (_ ∧ _))

variable {rounds : List Round}

theorem Succeed.exists_run (h : Succeed l rounds) :
    ∀ k ∈ rounds, ∃ before, (run k.fs k.config before).result = .ok (k.ledger, k.report) := by
  induction rounds generalizing l with
  | nil => simp
  | cons k rest ih =>
    obtain ⟨hrun, hrest⟩ := h
    exact List.forall_mem_cons.2 ⟨⟨l, hrun⟩, ih hrest⟩

/-- The ledger never has fewer names than before. -/
theorem Succeed.fileCounts (h : Succeed l rounds) :
    (∀ k ∈ rounds, l.fileCount ≤ k.ledger.fileCount) ∧
      rounds.Pairwise fun j k => j.ledger.fileCount ≤ k.ledger.fileCount := by
  induction rounds generalizing l with
  | nil => simp
  | cons k rest ih =>
    obtain ⟨hrun, hrest⟩ := h
    obtain ⟨hle, hpairwise⟩ := ih hrest
    have hk := (grows_of_run hrun).fileCount_le
    refine ⟨List.forall_mem_cons.2 ⟨hk, fun j hj => hk.trans (hle j hj)⟩, ?_⟩
    exact List.pairwise_cons.2 ⟨hle, hpairwise⟩

/-- In a sequence of runs the totals fall short of the ledger by the names in albums that are not
listed.  They never decrease and count all vanished names exactly if there are no such names. -/
theorem totals_keep_up_iff (h : Succeed l rounds) :
    (∀ k ∈ rounds,
      k.report.totals.total + unlisted k.fs k.config k.ledger = k.ledger.fileCount ∧
      k.report.totals.deleted + unlisted k.fs k.config k.ledger =
        vanished k.fs k.config k.ledger) ∧
    ((rounds.Pairwise fun j k => j.report.totals.total ≤ k.report.totals.total) ∧
        (∀ k ∈ rounds, k.report.totals.deleted = vanished k.fs k.config k.ledger) ↔
      ∀ k ∈ rounds, ∀ year album n,
        n ∈ k.ledger.names year album → Visits k.fs k.config year album) := by
  have htotals : ∀ k ∈ rounds,
      k.report.totals.total + unlisted k.fs k.config k.ledger = k.ledger.fileCount ∧
      k.report.totals.deleted + unlisted k.fs k.config k.ledger =
        vanished k.fs k.config k.ledger := by
    intro k hk
    obtain ⟨before, hrun⟩ := h.exists_run k hk
    exact ⟨total_add_unlisted hrun, deleted_add_unlisted hrun⟩
  have hzero : ∀ k ∈ rounds, unlisted k.fs k.config k.ledger = 0 ↔ ∀ year album n,
      n ∈ k.ledger.names year album → Visits k.fs k.config year album := by
    intro k hk
    obtain ⟨before, hrun⟩ := h.exists_run k hk
    simp only [unlisted_eq_zero_iff, isListed_iff hrun]
  refine ⟨htotals, ?_, ?_⟩
  · rintro ⟨-, hdeleted⟩ k hk
    have := (htotals k hk).2
    have := hdeleted k hk
    exact (hzero k hk).1 (by omega)
  · intro hall
    have hnone : ∀ k ∈ rounds, unlisted k.fs k.config k.ledger = 0 :=
      fun k hk => (hzero k hk).2 (hall k hk)
    constructor
    · refine (List.Pairwise.and_mem.1 h.fileCounts.2).imp ?_
      rintro j k ⟨hj, hk, hle⟩
      have := (htotals j hj).1
      have := (htotals k hk).1
      have := hnone j hj
      have := hnone k hk
      omega
    · intro k hk
      have := (htotals k hk).2
      have := hnone k hk
      omega

/-- Roots with one album, which is removed after the first run. -/
def removedAlbum : List Round :=
  let c : Config := ⟨.ofString "/raws", .ofString "/edits", .ofString "/counts.json",
    .ofString "/photo_data.js", .json⟩
  let there := FileSystem.ofPaths ["/raws", "/raws/2023", "/raws/2023/Trip", "/edits"]
    ["/raws/2023/Trip/A.NEF"]
  let gone := FileSystem.ofPaths ["/raws", "/raws/2023", "/edits"] []
  let recorded := Ledger.empty.update "2023" "Trip" (.ofList ["A"])
  [⟨there, c, recorded, ⟨[⟨"2023", [⟨"Trip", 1, 0, 0⟩]⟩]⟩⟩, ⟨gone, c, recorded, ⟨[⟨"2023", []⟩]⟩⟩]

/-- The name in an album that is removed is neither in the total nor counted as deleted. -/
theorem removed_album_drops_out :
    Succeed .empty removedAlbum ∧
      removedAlbum.map (·.report.totals.total) = [1, 0] ∧
      removedAlbum.map (·.report.totals.deleted) = [0, 0] ∧
      removedAlbum.map (fun k => vanished k.fs k.config k.ledger) = [0, 1] := by
  decide +kernel

theorem totals_keep_up_iff_removedAlbum :
    Succeed .empty removedAlbum ∧
      (∀ k ∈ removedAlbum,
        k.report.totals.total + unlisted k.fs k.config k.ledger = k.ledger.fileCount ∧
        k.report.totals.deleted + unlisted k.fs k.config k.ledger =
          vanished k.fs k.config k.ledger) ∧
      ((removedAlbum.Pairwise fun j k => j.report.totals.total ≤ k.report.totals.total) ∧
          (∀ k ∈ removedAlbum, k.report.totals.deleted = vanished k.fs k.config k.ledger) ↔
        ∀ k ∈ removedAlbum, ∀ year album n,
          n ∈ k.ledger.names year album → Visits k.fs k.config year album) := by
  have h : Succeed .empty removedAlbum := by decide +kernel
  exact ⟨h, totals_keep_up_iff h⟩

end Reconcile

end PhotoTally
