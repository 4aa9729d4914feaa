import PhotoTally.Proofs.FileSystem.Looks
import PhotoTally.Proofs.Reconcile.Growth

/-!
# Reconciling again

A run finds the same wherever the places are the same that its steps look at (`run_congr`).  Once it
has recorded the albums, a second run over the same folders finds all their names known: it adds
nothing, and its report is that of the first (`run_again`).
-/

namespace PhotoTally

variable {fs fs' : FileSystem}

/-! ## Scans -/

namespace Scan

open FileSystem Look

variable {folder : Path}

theorem subfolders_congr (h : fs.Agrees fs' (Covered (fs.looksIn 1 folder))) :
    subfolders fs' folder = subfolders fs folder := by
  have harrange (names : List EntryName) : id names ⊆ names := List.Subset.refl names
  unfold subfolders
  rw [traverse_congr harrange h]

theorem files_congr {depth : Nat} (accept : String → Bool)
    (h : fs.Agrees fs' (Covered (fs.looksIn depth folder))) :
    files fs' depth accept folder = files fs depth accept folder := by
  have hstat : fs'.stat folder = fs.stat folder :=
    look_congr (h.of_subset (List.subset_append_left _ _)).on_way
  have htraverse := traverse_congr (fun names n hn => EntryName.mem_listed.1 hn) h
  unfold files pathExists pathIsFolder
  rw [hstat, htraverse]

end Scan

namespace Reconcile

open Look

variable {c : Config} {l l' known : Ledger} {year : String} {names : List String}

/-! ## What a run looks at -/

/-- The looks of a step. -/
def Check.looks (fs : FileSystem) (c : Config) : Check → List Look
  | years => fs.looksIn 1 c.source
  | albums year => fs.looksIn 1 (yearFolder c year)
  | raws year album => fs.looksIn 1 (albumFolder c.source year album)
  | edits year album => fs.looksIn 2 (albumFolder c.dest year album)

/-- The looks of some steps. -/
def looksOf (fs : FileSystem) (c : Config) (checks : List Check) : List Look :=
  checks.flatMap (Check.looks fs c)

/-- The looks of a run. -/
def looks (fs : FileSystem) (c : Config) : List Look := looksOf fs c (checks fs c)

theorem agrees_check {checks : List Check} (h : fs.Agrees fs' (Covered (looksOf fs c checks)))
    {check : Check} (hcheck : check ∈ checks) :
    fs.Agrees fs' (Covered (check.looks fs c)) :=
  h.of_subset fun _ hlook => List.mem_flatMap.2 ⟨check, hcheck, hlook⟩

theorem agrees_checks {some all : List Check} (h : fs.Agrees fs' (Covered (looksOf fs c all)))
    (hsub : some ⊆ all) : fs.Agrees fs' (Covered (looksOf fs c some)) :=
  h.of_subset fun _ hlook => by
    obtain ⟨check, hcheck, hmem⟩ := List.mem_flatMap.1 hlook
    exact List.mem_flatMap.2 ⟨check, hsub hcheck, hmem⟩

theorem album_congr {name : String} (l : Ledger)
    (hraws : fs.Agrees fs' (Covered ((Check.raws year name).looks fs c)))
    (hedits : fs.Agrees fs' (Covered ((Check.edits year name).looks fs c))) :
    album fs' c l year name = album fs c l year name := by
  unfold album Scan.raws Scan.edits
  rw [Scan.files_congr _ hraws, Scan.files_congr _ hedits]

theorem albums_congr (l : Ledger)
    (h : fs.Agrees fs' (Covered (looksOf fs c (checksOfAlbums year names)))) :
    (albums fs' c year names l).result = (albums fs c year names l).result := by
  induction names generalizing l with
  | nil => rfl
  | cons name rest ih =>
    rw [checksOfAlbums_cons] at h
    have hraws := agrees_check h (show .raws year name ∈ _ by simp)
    have hedits := agrees_check h (show .edits year name ∈ _ by simp)
    have hrest := agrees_checks h (List.subset_append_right _ _)
    rw [result_albums_cons, result_albums_cons, album_congr l hraws hedits, ih _ hrest]

theorem years_congr (l : Ledger)
    (h : fs.Agrees fs' (Covered (looksOf fs c (checksOfYears fs c names)))) :
    (years fs' c names l).result = (years fs c names l).result := by
  induction names generalizing l with
  | nil => rfl
  | cons year rest ih =>
    rw [checksOfYears_cons] at h
    have hlist := agrees_check h List.mem_cons_self
    have halbums := agrees_checks h fun check hcheck =>
      List.mem_cons_of_mem _ (List.mem_append_left _ hcheck)
    have hrest := agrees_checks h fun check hcheck =>
      List.mem_cons_of_mem _ (List.mem_append_right _ hcheck)
    rw [result_years_cons, result_years_cons, Scan.subfolders_congr hlist]
    cases hfound : (Scan.subfolders fs (yearFolder c year)).result with
    | error f => rfl
    | ok found =>
      rw [listed_of_ok hfound] at halbums
      simp only [albums_congr l halbums, ih _ hrest]

/-- A run ends alike in file systems that agree on what its steps look at. -/
theorem run_congr (l : Ledger) (h : fs.Agrees fs' (Covered (looks fs c))) :
    (run fs' c l).result = (run fs c l).result := by
  have hlist := agrees_check h List.mem_cons_self
  have hyears := agrees_checks h fun check hcheck => List.mem_cons_of_mem _ hcheck
  rw [result_run, result_run, Scan.subfolders_congr hlist]
  cases hfound : (Scan.subfolders fs c.source).result with
  | error f => rfl
  | ok found =>
    rw [listed_of_ok hfound] at hyears
    simp only [years_congr l hyears]

/-! ## Recording the albums again -/

/-- Albums that are listed once can be reconciled again with a ledger that has what was recorded
for them, and this ledger stays as it is. -/
theorem albums_again {rows : List AlbumCounts} (hnames : names.Nodup)
    (h : (albums fs c year names l).result = .ok (l', rows))
    (hknown : ∀ name ∈ names, known.album? year name = l'.album? year name) :
    (albums fs c year names known).result = .ok (known, rows) := by
  induction names generalizing l rows with
  | nil =>
    obtain ⟨-, rfl⟩ := Prod.mk.inj (Except.ok.inj h)
    rfl
  | cons name rest ih =>
    obtain ⟨hnotMem, hrest⟩ := List.nodup_cons.1 hnames
    obtain ⟨raw, edited, more, hraw, hedit, hmore, rfl⟩ := albums_cons_eq_ok h
    -- the albums behind this one leave its names as they are
    have hlater : l'.album? year name = (l.update year name raw).album? year name :=
      (grows_of_albums hrest hmore).kept _ _ fun hin => hnotMem hin.2
    have hname : known.album? year name = some (Ledger.extend (l.names year name) raw) := by
      rw [hknown name List.mem_cons_self, hlater, Ledger.album?_update_self]
    have hrecord : known.update year name raw = known :=
      Ledger.update_eq_self hname (Ledger.subset_extend _ raw)
    have hcounts : known.names year name = (l.update year name raw).names year name := by
      unfold Ledger.names
      rw [hname, Ledger.album?_update_self]
    rw [result_albums_cons, result_album, ledger_album hraw, hraw, hedit]
    simp only [hrecord, hcounts, ih hrest hmore fun n hn => hknown n (List.mem_cons_of_mem _ hn)]
    rfl

theorem years_again {reports : List YearReport} (hnames : names.Nodup)
    (h : (years fs c names l).result = .ok (l', reports))
    (hknown : ∀ year ∈ names, ∀ album, known.album? year album = l'.album? year album) :
    (years fs c names known).result = .ok (known, reports) := by
  induction names generalizing l reports with
  | nil =>
    obtain ⟨-, rfl⟩ := Prod.mk.inj (Except.ok.inj h)
    rfl
  | cons year rest ih =>
    obtain ⟨hnotMem, hrest⟩ := List.nodup_cons.1 hnames
    obtain ⟨found, l₁, rows, more, hlist, halbums, hmore, rfl⟩ := years_cons_eq_ok h
    have hyear : ∀ album, known.album? year album = l₁.album? year album := fun album => by
      rw [hknown year List.mem_cons_self album]
      exact (grows_of_years hrest hmore).kept _ _ fun hin => hnotMem hin.1
    rw [result_years_cons, hlist]
    simp only [albums_again (Scan.subfolders_nodup hlist) halbums fun name _ => hyear name,
      ih hrest hmore fun y hy => hknown y (List.mem_cons_of_mem _ hy)]
    rfl

/-- A run with the ledger of a run before it adds nothing, and gives the same report. -/
theorem run_again {r : Report} (h : (run fs c l).result = .ok (l', r)) :
    (run fs c l').result = .ok (l', r) := by
  obtain ⟨found, hlist, hyears⟩ := run_eq_ok h
  rw [result_run, hlist]
  simp only [years_again (Scan.subfolders_nodup hlist) hyears fun _ _ _ => rfl]
  rfl

end Reconcile

end PhotoTally
