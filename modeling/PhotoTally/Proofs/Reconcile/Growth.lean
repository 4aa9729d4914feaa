import PhotoTally.Proofs.Ledger.Recording
import PhotoTally.Proofs.Reconcile.Checks
import PhotoTally.Proofs.Scan.Subfolders

/-!
# What a run adds to the ledger

A run records the raw scans of the albums it visits, each of them once, and leaves the rest of the
ledger as it was (`grows_of_run`).  Recordings of different albums do not get in each other's way
(`Grows.trans`), so it does not matter that the albums are recorded one after the other.
-/

namespace PhotoTally

namespace Reconcile

variable {fs : FileSystem} {c : Config} {l l₁ l₂ l' : Ledger} {year : String}
variable {P Q : String → String → Prop}

/-- Whether `l'` is `l` with the raw scans of the albums in `P` recorded. -/
structure Grows (fs : FileSystem) (c : Config) (P : String → String → Prop) (l l' : Ledger) :
    Prop where
  recorded : ∀ year album, P year album → ∃ raw,
    (Scan.raws fs (albumFolder c.source year album)).result = .ok raw ∧
      l'.album? year album = some (Ledger.extend (l.names year album) raw)
  kept : ∀ year album, ¬ P year album → l'.album? year album = l.album? year album
  keys : ∀ year, (∀ album, ¬ P year album) → l'.years.get? year = l.years.get? year

namespace Grows

theorem refl (fs : FileSystem) (c : Config) (l : Ledger) (h : ∀ year album, ¬ P year album) :
    Grows fs c P l l :=
  ⟨fun _ _ hP => absurd hP (h _ _), fun _ _ _ => rfl, fun _ _ => rfl⟩

theorem names_kept (h : Grows fs c P l l') {year album : String} (hP : ¬ P year album) :
    l'.names year album = l.names year album := by
  unfold Ledger.names
  rw [h.kept _ _ hP]

/-- Recordings of different albums can be made one after the other. -/
theorem trans (h₁ : Grows fs c P l l₁) (h₂ : Grows fs c Q l₁ l₂)
    (hdisjoint : ∀ year album, P year album → ¬ Q year album) :
    Grows fs c (fun year album => P year album ∨ Q year album) l l₂ where
  recorded year album hPQ := by
    by_cases hP : P year album
    · obtain ⟨raw, hraw, hnames⟩ := h₁.recorded _ _ hP
      exact ⟨raw, hraw, (h₂.kept _ _ (hdisjoint _ _ hP)).trans hnames⟩
    · obtain ⟨raw, hraw, hnames⟩ := h₂.recorded _ _ (hPQ.resolve_left hP)
      rw [h₁.names_kept hP] at hnames
      exact ⟨raw, hraw, hnames⟩
  kept year album hPQ := by
    obtain ⟨hP, hQ⟩ := not_or.1 hPQ
    exact (h₂.kept _ _ hQ).trans (h₁.kept _ _ hP)
  keys year hPQ := by
    have hP : ∀ album, ¬ P year album := fun album hP => hPQ album (.inl hP)
    have hQ : ∀ album, ¬ Q year album := fun album hQ => hPQ album (.inr hQ)
    exact (h₂.keys _ hQ).trans (h₁.keys _ hP)

theorem congr (h : Grows fs c P l l') (hPQ : ∀ year album, P year album ↔ Q year album) :
    Grows fs c Q l l' := by
  have : P = Q := by
    funext year album
    exact propext (hPQ year album)
  rwa [this] at h

end Grows

theorem grows_update {name : String} {raw : NameSet}
    (h : (Scan.raws fs (albumFolder c.source year name)).result = .ok raw) :
    Grows fs c (fun y a => y = year ∧ a = name) l (l.update year name raw) where
  recorded y a hya := by
    obtain ⟨rfl, rfl⟩ := hya
    exact ⟨raw, h, Ledger.album?_update_self _ _ _ _⟩
  kept y a hya := by rw [Ledger.album?_update, if_neg hya]
  keys y hy := Ledger.years_update_of_ne fun hyear => hy name ⟨hyear, rfl⟩

/-! ## Albums -/

/-- What the albums of a year come to if none fails. -/
theorem albums_cons_eq_ok {name : String} {rest : List String} {rows : List AlbumCounts}
    (h : (albums fs c year (name :: rest) l).result = .ok (l', rows)) :
    ∃ raw edited more,
      (Scan.raws fs (albumFolder c.source year name)).result = .ok raw ∧
      (Scan.edits fs (albumFolder c.dest year name)).result = .ok edited ∧
      (albums fs c year rest (l.update year name raw)).result = .ok (l', more) ∧
      rows = .count name ((l.update year name raw).names year name) raw edited :: more := by
  rw [result_albums_cons, result_album] at h
  cases hraw : (Scan.raws fs (albumFolder c.source year name)).result with
  | error f => simp [hraw] at h
  | ok raw =>
    cases hedit : (Scan.edits fs (albumFolder c.dest year name)).result with
    | error f => simp [hraw, hedit] at h
    | ok edited =>
      rw [ledger_album hraw, hraw, hedit] at h
      obtain ⟨⟨l₂, more⟩, hmore, heq⟩ := map_eq_ok_iff.1 h
      obtain ⟨rfl, rfl⟩ := Prod.mk.inj heq
      exact ⟨raw, edited, more, rfl, rfl, hmore, rfl⟩

theorem grows_of_albums {names : List String} {rows : List AlbumCounts} (hnames : names.Nodup)
    (h : (albums fs c year names l).result = .ok (l', rows)) :
    Grows fs c (fun y a => y = year ∧ a ∈ names) l l' := by
  induction names generalizing l rows with
  | nil =>
    obtain ⟨rfl, rfl⟩ := Prod.mk.inj (Except.ok.inj h)
    exact .refl _ _ _ (by simp)
  | cons name rest ih =>
    obtain ⟨hnotMem, hrest⟩ := List.nodup_cons.1 hnames
    obtain ⟨raw, edited, more, hraw, -, hmore, rfl⟩ := albums_cons_eq_ok h
    refine ((grows_update hraw).trans (ih hrest hmore) ?_).congr fun y a => ?_
    · rintro y a ⟨rfl, rfl⟩ ⟨-, hmem⟩
      exact hnotMem hmem
    · rw [List.mem_cons, ← and_or_left]

/-! ## Years -/

/-- What the years come to if none fails. -/
theorem years_cons_eq_ok {rest : List String} {reports : List YearReport}
    (h : (years fs c (year :: rest) l).result = .ok (l', reports)) :
    ∃ names l₁ rows more,
      (Scan.subfolders fs (yearFolder c year)).result = .ok names ∧
      (albums fs c year names l).result = .ok (l₁, rows) ∧
      (years fs c rest l₁).result = .ok (l', more) ∧ reports = ⟨year, rows⟩ :: more := by
  rw [result_years_cons] at h
  cases hlist : (Scan.subfolders fs (yearFolder c year)).result with
  | error f => simp [hlist] at h
  | ok names =>
    rw [hlist] at h
    cases halbums : (albums fs c year names l).result with
    | error f => simp [halbums] at h
    | ok found =>
      obtain ⟨l₁, rows⟩ := found
      simp only [halbums] at h
      obtain ⟨⟨l₂, more⟩, hmore, heq⟩ := map_eq_ok_iff.1 h
      obtain ⟨rfl, rfl⟩ := Prod.mk.inj heq
      exact ⟨names, l₁, rows, more, rfl, halbums, hmore, rfl⟩

theorem grows_of_years {names : List String} {reports : List YearReport} (hnames : names.Nodup)
    (h : (years fs c names l).result = .ok (l', reports)) :
    Grows fs c (fun y a => y ∈ names ∧ fs.HasSubfolder (yearFolder c y) a) l l' := by
  induction names generalizing l reports with
  | nil =>
    obtain ⟨rfl, rfl⟩ := Prod.mk.inj (Except.ok.inj h)
    exact .refl _ _ _ (by simp)
  | cons year rest ih =>
    obtain ⟨hnotMem, hrest⟩ := List.nodup_cons.1 hnames
    obtain ⟨found, l₁, rows, more, hlist, halbums, hmore, rfl⟩ := years_cons_eq_ok h
    have hyear := grows_of_albums (Scan.subfolders_nodup hlist) halbums
    refine (hyear.trans (ih hrest hmore) ?_).congr fun y a => ?_
    · rintro y a ⟨rfl, -⟩ ⟨hmem, -⟩
      exact hnotMem hmem
    · rw [List.mem_cons, or_and_right]
      refine or_congr_left (and_congr_right fun hy => ?_)
      rw [hy, Scan.mem_subfolders hlist]

/-! ## Runs -/

/-- Whether a run comes to an album: its year is a subfolder of the source root, and the album one
of the year. -/
def Visits (fs : FileSystem) (c : Config) (year album : String) : Prop :=
  fs.HasSubfolder c.source year ∧ fs.HasSubfolder (yearFolder c year) album

theorem run_eq_ok {r : Report} (h : (run fs c l).result = .ok (l', r)) :
    ∃ names, (Scan.subfolders fs c.source).result = .ok names ∧
      (years fs c names l).result = .ok (l', r.years) := by
  rw [result_run] at h
  cases hlist : (Scan.subfolders fs c.source).result with
  | error f => simp [hlist] at h
  | ok names =>
    rw [hlist] at h
    obtain ⟨⟨l₂, reports⟩, hyears, heq⟩ := map_eq_ok_iff.1 h
    obtain ⟨rfl, rfl⟩ := Prod.mk.inj heq
    exact ⟨names, rfl, hyears⟩

/-- A run records the raw scans of the albums it visits, and nothing else. -/
theorem grows_of_run {r : Report} (h : (run fs c l).result = .ok (l', r)) :
    Grows fs c (Visits fs c) l l' := by
  obtain ⟨names, hlist, hyears⟩ := run_eq_ok h
  refine (grows_of_years (Scan.subfolders_nodup hlist) hyears).congr fun y a => ?_
  rw [Scan.mem_subfolders hlist]
  rfl

end Reconcile

end PhotoTally
