import PhotoTally.Proofs.Reconcile.Growth

/-!
# Two runs with one ledger

`SameSource fs c fs₂ c₂` says that a second run lists the same years and albums as a first one and
sees the same raw files.  If it can scan the pictures then it returns the same ledger, and a report
whose rows are related to those of the first as the pictures make them (`run_follows`): what is
recorded comes from the listings and the raw files alone.
-/

namespace PhotoTally

namespace Report

/-- Whether reports have the same years, and rows that are related one by one. -/
def Aligned (R : AlbumCounts → AlbumCounts → Prop) (r r₂ : Report) : Prop :=
  List.Forall₂ (fun y y₂ => y₂.year = y.year ∧ List.Forall₂ R y.albums y₂.albums) r.years r₂.years

variable {R : AlbumCounts → AlbumCounts → Prop} {r r₂ : Report}

/-- The rows of all years are related one by one. -/
theorem Aligned.albums (h : r.Aligned R r₂) : List.Forall₂ R r.albums r₂.albums := by
  obtain ⟨years⟩ := r
  obtain ⟨years₂⟩ := r₂
  unfold Report.albums
  replace h : List.Forall₂ _ years years₂ := h
  induction h with
  | nil => exact .nil
  | cons hyear _ ih =>
    rw [List.flatMap_cons, List.flatMap_cons]
    exact List.rel_append hyear.2 ih

theorem Aligned.eq (h : r.Aligned Eq r₂) : r₂ = r := by
  obtain ⟨years⟩ := r
  obtain ⟨years₂⟩ := r₂
  replace h : List.Forall₂ _ years years₂ := h
  have hyears : years = years₂ := by
    refine List.forall₂_eq_eq_eq ▸ h.imp fun y y₂ hyear => ?_
    obtain ⟨hname, hrows⟩ := hyear
    rw [List.forall₂_eq_eq_eq] at hrows
    obtain ⟨name, rows⟩ := y
    obtain ⟨name₂, rows₂⟩ := y₂
    obtain rfl : name₂ = name := hname
    obtain rfl : rows = rows₂ := hrows
    rfl
  rw [hyears]

end Report

namespace Reconcile

variable {R : AlbumCounts → AlbumCounts → Prop} {fs fs₂ : FileSystem} {c c₂ : Config}
  {l l' : Ledger} {year : String} {names : List String}

/-- Whether a second run lists the years and the albums of a first, and sees their raw files. -/
structure SameSource (fs : FileSystem) (c : Config) (fs₂ : FileSystem) (c₂ : Config) : Prop where
  years : (Scan.subfolders fs₂ c₂.source).result = (Scan.subfolders fs c.source).result
  albums : ∀ year ∈ listed fs c.source, (Scan.subfolders fs₂ (yearFolder c₂ year)).result =
    (Scan.subfolders fs (yearFolder c year)).result
  raws : ∀ year ∈ listed fs c.source, ∀ album ∈ listed fs (yearFolder c year),
    (Scan.raws fs₂ (albumFolder c₂.source year album)).result =
      (Scan.raws fs (albumFolder c.source year album)).result

/-- Whether a second run can scan the pictures of an album that a first has scanned, and finds such
that the rows of the album are related. -/
def EditsRelate (R : AlbumCounts → AlbumCounts → Prop) (fs : FileSystem) (c : Config)
    (fs₂ : FileSystem) (c₂ : Config) (year album : String) : Prop :=
  ∀ raw edited, (Scan.raws fs (albumFolder c.source year album)).result = .ok raw →
    (Scan.edits fs (albumFolder c.dest year album)).result = .ok edited →
      ∃ edited₂, (Scan.edits fs₂ (albumFolder c₂.dest year album)).result = .ok edited₂ ∧
        ∀ recorded, R (.count album recorded raw edited) (.count album recorded raw edited₂)

theorem albums_follow {rows : List AlbumCounts}
    (hraws : ∀ album ∈ names, (Scan.raws fs₂ (albumFolder c₂.source year album)).result =
      (Scan.raws fs (albumFolder c.source year album)).result)
    (hedits : ∀ album ∈ names, EditsRelate R fs c fs₂ c₂ year album)
    (h : (albums fs c year names l).result = .ok (l', rows)) :
    ∃ rows₂, (albums fs₂ c₂ year names l).result = .ok (l', rows₂) ∧ List.Forall₂ R rows rows₂ := by
  induction names generalizing l rows with
  | nil =>
    obtain ⟨rfl, rfl⟩ := Prod.mk.inj (Except.ok.inj h)
    exact ⟨[], rfl, .nil⟩
  | cons name rest ih =>
    obtain ⟨raw, edited, more, hraw, hedit, hmore, rfl⟩ := albums_cons_eq_ok h
    obtain ⟨hraw₂, hraws⟩ := List.forall_mem_cons.1 hraws
    obtain ⟨hname, hedits⟩ := List.forall_mem_cons.1 hedits
    obtain ⟨edited₂, hedit₂, hrow⟩ := hname raw edited hraw hedit
    obtain ⟨more₂, hmore₂, hrelated⟩ := ih hraws hedits hmore
    rw [hraw] at hraw₂
    refine ⟨_, ?_, .cons (hrow _) hrelated⟩
    rw [result_albums_cons, result_album, ledger_album hraw₂, hraw₂, hedit₂]
    simp only [hmore₂]
    rfl

theorem years_follow {reports : List YearReport}
    (halbums : ∀ year ∈ names, (Scan.subfolders fs₂ (yearFolder c₂ year)).result =
      (Scan.subfolders fs (yearFolder c year)).result)
    (hraws : ∀ year ∈ names, ∀ album ∈ listed fs (yearFolder c year),
      (Scan.raws fs₂ (albumFolder c₂.source year album)).result =
        (Scan.raws fs (albumFolder c.source year album)).result)
    (hedits : ∀ year ∈ names, ∀ album ∈ listed fs (yearFolder c year),
      EditsRelate R fs c fs₂ c₂ year album)
    (h : (years fs c names l).result = .ok (l', reports)) :
    ∃ reports₂, (years fs₂ c₂ names l).result = .ok (l', reports₂) ∧
      Report.Aligned R ⟨reports⟩ ⟨reports₂⟩ := by
  induction names generalizing l reports with
  | nil =>
    obtain ⟨rfl, rfl⟩ := Prod.mk.inj (Except.ok.inj h)
    exact ⟨[], rfl, .nil⟩
  | cons year rest ih =>
    obtain ⟨found, l₁, rows, more, hlist, hfound, hmore, rfl⟩ := years_cons_eq_ok h
    obtain ⟨hlist₂, halbums⟩ := List.forall_mem_cons.1 halbums
    obtain ⟨hyear_raws, hraws⟩ := List.forall_mem_cons.1 hraws
    obtain ⟨hyear_edits, hedits⟩ := List.forall_mem_cons.1 hedits
    rw [listed_of_ok hlist] at hyear_raws hyear_edits
    rw [hlist] at hlist₂
    obtain ⟨rows₂, hfound₂, hrelated⟩ := albums_follow hyear_raws hyear_edits hfound
    obtain ⟨more₂, hmore₂, haligned⟩ := ih halbums hraws hedits hmore
    refine ⟨⟨year, rows₂⟩ :: more₂, ?_, .cons ⟨rfl, hrelated⟩ haligned⟩
    rw [result_years_cons, hlist₂]
    simp only [hfound₂, hmore₂]
    rfl

/-- A run with the same source as one that succeeds returns the same ledger and a report with
related rows. -/
theorem run_follows {r : Report} (h : SameSource fs c fs₂ c₂)
    (hedits : ∀ year ∈ listed fs c.source, ∀ album ∈ listed fs (yearFolder c year),
      EditsRelate R fs c fs₂ c₂ year album)
    (hrun : (run fs c l).result = .ok (l', r)) :
    ∃ r₂, (run fs₂ c₂ l).result = .ok (l', r₂) ∧ r.Aligned R r₂ := by
  obtain ⟨names, hlist, hyears⟩ := run_eq_ok hrun
  have halbums := h.albums
  have hraws := h.raws
  rw [listed_of_ok hlist] at halbums hraws hedits
  obtain ⟨reports₂, hyears₂, haligned⟩ := years_follow halbums hraws hedits hyears
  refine ⟨⟨reports₂⟩, ?_, haligned⟩
  rw [result_run, h.years, hlist]
  simp only [hyears₂]
  rfl

/-- A second run that succeeds has scanned the pictures of all albums that the first has listed. -/
theorem SameSource.exists_edits (h : SameSource fs c fs₂ c₂)
    (hrun : ∃ result, (run fs₂ c₂ l).result = .ok result) {year album : String}
    (hyear : year ∈ listed fs c.source) (halbum : album ∈ listed fs (yearFolder c year)) :
    ∃ edited₂, (Scan.edits fs₂ (albumFolder c₂.dest year album)).result = .ok edited₂ := by
  obtain ⟨names, hlist, hall⟩ := run_isOk_iff.1 hrun
  rw [h.years] at hlist
  rw [listed_of_ok hlist] at hyear
  obtain ⟨found, hfound, hscans⟩ := hall year hyear
  rw [h.albums year (by rwa [listed_of_ok hlist])] at hfound
  rw [listed_of_ok hfound] at halbum
  exact (hscans album halbum).2

end Reconcile

end PhotoTally
