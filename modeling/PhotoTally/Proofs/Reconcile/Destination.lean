import PhotoTally.Proofs.Reconcile.Accounting
import PhotoTally.Proofs.Reconcile.Again
import PhotoTally.Proofs.Reconcile.Sets
import PhotoTally.Proofs.Reconcile.TwoRuns
import PhotoTally.Proofs.Scan.Found

/-!
# What the pictures change

The folders of pictures decide about one column of a report only.  Two runs that read the same
source return the same ledger and the same rows but for what is edited, and more pictures never make
a row less complete (`destination_moves_edited`).  Where nodes were only added, every scan that
succeeds has found no less.
-/

namespace PhotoTally

/-! ## Rows -/

namespace AlbumCounts

/-- Whether two rows differ in what is edited only. -/
structure SameButEdited (row row₂ : AlbumCounts) : Prop where
  album : row₂.album = row.album
  total : row₂.total = row.total
  deleted : row₂.deleted = row.deleted

/-- Whether the second of two rows is ahead of the first. -/
structure IsAhead (row row₂ : AlbumCounts) : Prop extends SameButEdited row row₂ where
  edited : row.edited ≤ row₂.edited
  pending : row₂.pending ≤ row.pending
  complete : row.isComplete = true → row₂.isComplete = true

theorem SameButEdited.isAhead {row row₂ : AlbumCounts} (h : row.SameButEdited row₂)
    (hedited : row.edited ≤ row₂.edited) : row.IsAhead row₂ where
  toSameButEdited := h
  edited := hedited
  pending := by
    unfold pending
    rw [h.total, h.deleted]
    omega
  complete := by
    rw [isComplete_iff, isComplete_iff, h.total, h.deleted]
    omega

theorem sameButEdited_count (album : String) (recorded : List String)
    (raw edited edited₂ : NameSet) :
    (count album recorded raw edited).SameButEdited (count album recorded raw edited₂) :=
  ⟨rfl, rfl, rfl⟩

/-- A row is ahead if its pictures are among those of the other. -/
theorem isAhead_count {raw edited edited₂ : NameSet} (h : ∀ n ∈ edited, n ∈ edited₂)
    (album : String) (recorded : List String) :
    (count album recorded raw edited).IsAhead (count album recorded raw edited₂) := by
  refine (sameButEdited_count album recorded raw edited edited₂).isAhead ?_
  refine List.countP_mono_left fun n _ hn => ?_
  simp only [decide_eq_true_eq] at hn ⊢
  exact ⟨hn.1, h n hn.2⟩

end AlbumCounts

/-- Whether the second of two sums is ahead of the first. -/
structure Totals.IsAhead (t t₂ : Totals) : Prop where
  albums : t₂.albums = t.albums
  total : t₂.total = t.total
  deleted : t₂.deleted = t.deleted
  edited : t.edited ≤ t₂.edited
  complete : t.complete ≤ t₂.complete

/-- If every row is ahead the sums are. -/
theorem Report.Aligned.totals {r r₂ : Report} (h : r.Aligned AlbumCounts.IsAhead r₂) :
    r.totals.IsAhead r₂.totals := by
  have hrows := h.albums
  unfold Report.totals
  generalize r.albums = rows at hrows
  generalize r₂.albums = rows₂ at hrows
  induction hrows with
  | nil => exact ⟨rfl, rfl, rfl, Nat.le_refl _, Nat.le_refl _⟩
  | @cons row row₂ rows rows₂ hrow _ ih =>
    obtain ⟨halbums, htotal, hdeleted, hedited, hcomplete⟩ := ih
    simp only at halbums htotal hdeleted hedited hcomplete
    have := hrow.total
    have := hrow.deleted
    have := hrow.edited
    have hmore : (if row.isComplete then 1 else 0) ≤ if row₂.isComplete then 1 else 0 := by
      split_ifs with hthen helse
      · exact Nat.le_refl 1
      · exact absurd (hrow.complete hthen) helse
      · exact Nat.zero_le 1
      · exact Nat.le_refl 0
    constructor <;> simp only [List.length_cons, List.map_cons, List.foldr_cons, List.countP_cons]
    · omega
    · omega
    · omega
    · omega
    · omega

/-! ## Runs -/

namespace Reconcile

open Look

variable {fs fs₂ : FileSystem} {c c₂ : Config} {l l' l₂ : Ledger} {r r₂ : Report}
  {year album : String}

/-- Whether a step reads the source only. -/
def Check.isOfSource : Check → Bool
  | edits _ _ => false
  | _ => true

/-- The looks of a run at the source. -/
def sourceLooks (fs : FileSystem) (c : Config) : List Look :=
  looksOf fs c ((checks fs c).filter Check.isOfSource)

theorem albums_mem_checks (hyear : year ∈ listed fs c.source) : .albums year ∈ checks fs c :=
  List.mem_cons_of_mem _ (List.mem_flatMap.2 ⟨year, hyear, List.mem_cons_self⟩)

theorem raws_mem_checks (hyear : year ∈ listed fs c.source)
    (halbum : album ∈ listed fs (yearFolder c year)) : .raws year album ∈ checks fs c := by
  refine List.mem_cons_of_mem _ (List.mem_flatMap.2 ⟨year, hyear, List.mem_cons_of_mem _ ?_⟩)
  exact List.mem_flatMap.2 ⟨album, halbum, List.mem_cons_self⟩

/-- A run reads the same source in file systems that agree on what it looks at there. -/
theorem sameSource_of_agrees (hsource : c₂.source = c.source)
    (h : fs.Agrees fs₂ (Covered (sourceLooks fs c))) : SameSource fs c fs₂ c₂ where
  years := by
    have hlooks := agrees_check h (List.mem_filter.2 ⟨List.mem_cons_self, rfl⟩)
    rw [hsource, Scan.subfolders_congr hlooks]
  albums year hyear := by
    have hlooks := agrees_check h (List.mem_filter.2 ⟨albums_mem_checks hyear, rfl⟩)
    unfold yearFolder
    rw [hsource]
    exact congrArg Outcome.result (Scan.subfolders_congr hlooks)
  raws year hyear album halbum := by
    have hlooks := agrees_check h (List.mem_filter.2 ⟨raws_mem_checks hyear halbum, rfl⟩)
    rw [hsource]
    exact congrArg Outcome.result (Scan.files_congr _ hlooks)

/-- Whether every album's pictures in a first run are among those in a second. -/
def SeesMore (fs : FileSystem) (c : Config) (fs₂ : FileSystem) (c₂ : Config) : Prop :=
  ∀ year album edited edited₂, Visits fs c year album →
    (Scan.edits fs (albumFolder c.dest year album)).result = .ok edited →
    (Scan.edits fs₂ (albumFolder c₂.dest year album)).result = .ok edited₂ →
      ∀ n ∈ edited, n ∈ edited₂

/-- Two runs that succeed with the same source return the same ledger, and reports with the same
rows but for what is edited.  If one of them sees all pictures that the other sees then its report
is ahead row by row, and so are its sums; it does so where nodes were only added. -/
theorem destination_moves_edited (hsource : c₂.source = c.source)
    (hagree : fs.Agrees fs₂ (Covered (sourceLooks fs c)))
    (hrun : (run fs c l).result = .ok (l', r)) (hrun₂ : (run fs₂ c₂ l).result = .ok (l₂, r₂)) :
    l₂ = l' ∧ r.Aligned AlbumCounts.SameButEdited r₂ ∧
      (SeesMore fs c fs₂ c₂ →
        r.Aligned AlbumCounts.IsAhead r₂ ∧ r.totals.IsAhead r₂.totals) ∧
      (c₂.dest = c.dest → fs.Keeps fs₂ → SeesMore fs c fs₂ c₂) := by
  have hsame := sameSource_of_agrees hsource hagree
  -- what the pictures of each album make of its row holds of the two reports
  have hfollows {R : AlbumCounts → AlbumCounts → Prop}
      (hR : ∀ year album edited edited₂ raw recorded, Visits fs c year album →
        (Scan.edits fs (albumFolder c.dest year album)).result = .ok edited →
        (Scan.edits fs₂ (albumFolder c₂.dest year album)).result = .ok edited₂ →
          R (.count album recorded raw edited) (.count album recorded raw edited₂)) :
      l₂ = l' ∧ r.Aligned R r₂ := by
    obtain ⟨r', hrun', haligned⟩ := run_follows (R := R) hsame
      (fun year hyear album halbum raw edited _ hedit => by
        obtain ⟨edited₂, hedit₂⟩ := hsame.exists_edits ⟨_, hrun₂⟩ hyear halbum
        exact ⟨edited₂, hedit₂, fun recorded =>
          hR _ _ _ _ raw recorded ((isListed_iff hrun).1 (by simp [isListed, hyear, halbum]))
            hedit hedit₂⟩) hrun
    rw [hrun₂] at hrun'
    obtain ⟨rfl, rfl⟩ := Prod.mk.inj (Except.ok.inj hrun')
    exact ⟨rfl, haligned⟩
  obtain ⟨hledger, hrows⟩ := hfollows fun _ album edited edited₂ raw recorded _ _ _ =>
    AlbumCounts.sameButEdited_count album recorded raw edited edited₂
  refine ⟨hledger, hrows, fun hmore => ?_, fun hdest hkeeps => ?_⟩
  · have hahead : r.Aligned AlbumCounts.IsAhead r₂ :=
      (hfollows fun year album edited edited₂ raw recorded hvisits hedit hedit₂ =>
        AlbumCounts.isAhead_count (hmore year album edited edited₂ hvisits hedit hedit₂)
          album recorded).2
    exact ⟨hahead, hahead.totals⟩
  · intro year album edited edited₂ _ hedit hedit₂
    rw [hdest] at hedit₂
    exact Scan.files_mono hkeeps hedit hedit₂

/-- The picture of the other raw file is added, and the album is complete. -/
theorem destination_moves_edited_added :
    let place := (Path.ofString "/edits/2023/Trip/B.jpg").place
    let done := halfEdited.put place (.file Mode.plainFile .empty)
    let l := Ledger.empty.update "2023" "Trip" (.ofList ["A", "B"])
    halfEdited.Agrees done (Covered (sourceLooks halfEdited halfEditedRoots)) ∧
      halfEdited.Keeps done ∧
      (run halfEdited halfEditedRoots .empty).result = .ok (l, ⟨[⟨"2023", [⟨"Trip", 2, 1, 0⟩]⟩]⟩) ∧
      (run done halfEditedRoots .empty).result = .ok (l, ⟨[⟨"2023", [⟨"Trip", 2, 2, 0⟩]⟩]⟩) ∧
      Totals.IsAhead ⟨1, 0, 2, 1, 0⟩ ⟨1, 1, 2, 2, 0⟩ := by
  intro place done l
  have hagree : halfEdited.Agrees done (Covered (sourceLooks halfEdited halfEditedRoots)) :=
    FileSystem.agrees_put (by decide +kernel) _ (by decide +kernel)
  have hkeeps : halfEdited.Keeps done := FileSystem.keeps_put (by decide +kernel) _
  have hrun : (run halfEdited halfEditedRoots .empty).result =
      .ok (l, ⟨[⟨"2023", [⟨"Trip", 2, 1, 0⟩]⟩]⟩) := by
    decide +kernel
  have hrun₂ : (run done halfEditedRoots .empty).result =
      .ok (l, ⟨[⟨"2023", [⟨"Trip", 2, 2, 0⟩]⟩]⟩) := by
    decide +kernel
  obtain ⟨-, -, hahead, hmore⟩ := destination_moves_edited rfl hagree hrun hrun₂
  exact ⟨hagree, hkeeps, hrun, hrun₂, (hahead (hmore rfl hkeeps)).2⟩

end Reconcile

end PhotoTally
