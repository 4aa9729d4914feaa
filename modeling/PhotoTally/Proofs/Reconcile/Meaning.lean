import PhotoTally.Proofs.Reconcile.Growth

/-!
# What a report says

The report of a run that succeeds has the subfolders of the source root as its years and their
subfolders as albums, both ascending, and each row counts the names that the returned ledger has for
the album.  The rows are counted one by one while the ledger still grows; a row stays right since
the albums after it are others (`counts_of_albums`, `accounts_of_years`).
-/

namespace PhotoTally.Reconcile

variable {fs : FileSystem} {c : Config} {l l₁ l' : Ledger} {year : String}
variable {names : List String} {rows : List AlbumCounts}

/-- Whether a row counts the names that the ledger has for its album against the scans of it. -/
def Counts (fs : FileSystem) (c : Config) (l : Ledger) (year : String) (row : AlbumCounts) : Prop :=
  ∃ raw edited,
    (Scan.raws fs (albumFolder c.source year row.album)).result = .ok raw ∧
    (Scan.edits fs (albumFolder c.dest year row.album)).result = .ok edited ∧
    row = .count row.album (l.names year row.album) raw edited

theorem Counts.of_names_eq {row : AlbumCounts} (h : Counts fs c l year row)
    (hnames : l'.names year row.album = l.names year row.album) : Counts fs c l' year row := by
  unfold Counts
  rw [hnames]
  exact h

/-! ## Albums -/

theorem albums_of_albums (h : (albums fs c year names l).result = .ok (l', rows)) :
    rows.map (·.album) = names := by
  induction names generalizing l rows with
  | nil =>
    obtain ⟨rfl, rfl⟩ := Prod.mk.inj (Except.ok.inj h)
    rfl
  | cons name rest ih =>
    obtain ⟨raw, edited, more, -, -, hmore, rfl⟩ := albums_cons_eq_ok h
    rw [List.map_cons, ih hmore]
    rfl

/-- The rows of a year count the names in the ledger that the last of its albums left. -/
theorem counts_of_albums (hnames : names.Nodup)
    (h : (albums fs c year names l).result = .ok (l', rows)) :
    ∀ row ∈ rows, Counts fs c l' year row := by
  induction names generalizing l rows with
  | nil =>
    obtain ⟨rfl, rfl⟩ := Prod.mk.inj (Except.ok.inj h)
    simp
  | cons name rest ih =>
    obtain ⟨hnotMem, hrest⟩ := List.nodup_cons.1 hnames
    obtain ⟨raw, edited, more, hraw, hedit, hmore, rfl⟩ := albums_cons_eq_ok h
    refine List.forall_mem_cons.2 ⟨?_, ih hrest hmore⟩
    have hcounts : Counts fs c (l.update year name raw) year
        (.count name ((l.update year name raw).names year name) raw edited) :=
      ⟨raw, edited, hraw, hedit, rfl⟩
    refine hcounts.of_names_eq ((grows_of_albums hrest hmore).names_kept ?_)
    rintro ⟨-, hmem⟩
    exact hnotMem hmem

/-! ## Years -/

theorem years_of_years {reports : List YearReport}
    (h : (years fs c names l).result = .ok (l', reports)) : reports.map (·.year) = names := by
  induction names generalizing l reports with
  | nil =>
    obtain ⟨rfl, rfl⟩ := Prod.mk.inj (Except.ok.inj h)
    rfl
  | cons year rest ih =>
    obtain ⟨found, l₁, rows, more, -, -, hmore, rfl⟩ := years_cons_eq_ok h
    rw [List.map_cons, ih hmore]

/-- Whether a year's report has a row for each of its subfolders, ascending, that counts the names
which the ledger has for it. -/
structure Accounts (fs : FileSystem) (c : Config) (l : Ledger) (y : YearReport) : Prop where
  ascending : (y.albums.map (·.album)).Pairwise fun a b => Text.bytes a < Text.bytes b
  mem_albums : ∀ album, album ∈ y.albums.map (·.album) ↔
    fs.HasSubfolder (yearFolder c y.year) album
  counts : ∀ row ∈ y.albums, Counts fs c l y.year row

theorem accounts_of_albums (hlist : (Scan.subfolders fs (yearFolder c year)).result = .ok names)
    (h : (albums fs c year names l).result = .ok (l', rows)) : Accounts fs c l' ⟨year, rows⟩ where
  ascending := by
    rw [albums_of_albums h]
    exact Scan.subfolders_ascending hlist
  mem_albums album := by
    rw [albums_of_albums h]
    exact Scan.mem_subfolders hlist album
  counts := counts_of_albums (Scan.subfolders_nodup hlist) h

theorem accounts_of_years {reports : List YearReport} (hnames : names.Nodup)
    (h : (years fs c names l).result = .ok (l', reports)) :
    ∀ y ∈ reports, Accounts fs c l' y := by
  induction names generalizing l reports with
  | nil =>
    obtain ⟨rfl, rfl⟩ := Prod.mk.inj (Except.ok.inj h)
    simp
  | cons year rest ih =>
    obtain ⟨hnotMem, hrest⟩ := List.nodup_cons.1 hnames
    obtain ⟨found, l₁, rows, more, hlist, halbums, hmore, rfl⟩ := years_cons_eq_ok h
    refine List.forall_mem_cons.2 ⟨?_, ih hrest hmore⟩
    have hyear := accounts_of_albums hlist halbums
    refine { hyear with counts := fun row hrow => (hyear.counts row hrow).of_names_eq ?_ }
    refine (grows_of_years hrest hmore).names_kept ?_
    rintro ⟨hmem, -⟩
    exact hnotMem hmem

/-! ## Runs -/

/-- Whether a ledger and a report are what a run makes of the folders and of the ledger `l`. -/
structure Describes (fs : FileSystem) (c : Config) (l l' : Ledger) (r : Report) : Prop where
  years_ascending : (r.years.map (·.year)).Pairwise fun a b => Text.bytes a < Text.bytes b
  mem_years : ∀ year, year ∈ r.years.map (·.year) ↔ fs.HasSubfolder c.source year
  accounts : ∀ y ∈ r.years, Accounts fs c l' y
  total : ∀ y ∈ r.years, ∀ row ∈ y.albums, row.total = (l'.names y.year row.album).length
  recorded : ∀ year album, Visits fs c year album → ∃ raw now,
    (Scan.raws fs (albumFolder c.source year album)).result = .ok raw ∧
      l'.album? year album = some now ∧ Ledger.Extends (l.names year album) raw now
  kept : ∀ year album, ¬ Visits fs c year album → l'.album? year album = l.album? year album
  keys : ∀ year, (∀ album, ¬ Visits fs c year album) → l'.years.get? year = l.years.get? year

/-- What a run that succeeds returns describes the folders. -/
theorem describes_of_run {r : Report} (h : (run fs c l).result = .ok (l', r)) :
    Describes fs c l l' r := by
  obtain ⟨names, hlist, hyears⟩ := run_eq_ok h
  have hgrows := grows_of_run h
  have haccounts := accounts_of_years (Scan.subfolders_nodup hlist) hyears
  refine ⟨?_, ?_, haccounts, ?_, ?_, hgrows.kept, hgrows.keys⟩
  · rw [years_of_years hyears]
    exact Scan.subfolders_ascending hlist
  · rw [years_of_years hyears]
    exact Scan.mem_subfolders hlist
  · intro y hy row hrow
    obtain ⟨raw, edited, -, -, hcount⟩ := (haccounts y hy).counts row hrow
    rw [hcount]
    rfl
  · intro year album hvisits
    obtain ⟨raw, hraw, hnow⟩ := hgrows.recorded year album hvisits
    exact ⟨raw, _, hraw, hnow, Ledger.extends_extend _ _⟩

/-- A run succeeds if all its steps do and fails with the first that fails otherwise; the years,
and the albums of a year, are gone through in ascending order.  What a run that succeeds returns
describes the folders. -/
theorem run_describes (fs : FileSystem) (c : Config) (l : Ledger) :
    ((∃ result, (run fs c l).result = .ok result) ↔ AllSucceed fs c) ∧
      (∀ f, (run fs c l).result = .error f ↔
        (checks fs c).findSome? (·.failure? fs c) = some f) ∧
      (∀ folder, (listed fs folder).Pairwise fun a b => Text.bytes a < Text.bytes b) ∧
      ∀ l' r, (run fs c l).result = .ok (l', r) → Describes fs c l l' r := by
  refine ⟨run_isOk_iff, fun f => run_eq_error_iff, fun folder => ?_,
    fun l' r h => describes_of_run h⟩
  unfold listed
  cases hlist : (Scan.subfolders fs folder).result with
  | error f => exact .nil
  | ok names => exact Scan.subfolders_ascending hlist

end PhotoTally.Reconcile
