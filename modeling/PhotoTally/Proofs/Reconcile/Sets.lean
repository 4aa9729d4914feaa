import PhotoTally.Proofs.Ledger.RoundTrip
import PhotoTally.Proofs.Reconcile.Growth
import PhotoTally.Proofs.FileSystem.Change

/-!
# The counts of an album as sets

The counts of an album are the sizes of four sets, made from the names that were recorded before,
the raw files and the pictures (`isTally_count`).  This rests on no name being recorded twice, which
holds of every ledger that was loaded and of every one that was grown from it (`Grown`).
-/

namespace PhotoTally

/-- The names of a set, without their order. -/
def NameSet.toFinset (s : NameSet) : Finset String := s.toList.toFinset

@[simp] theorem NameSet.mem_toFinset {s : NameSet} {n : String} : n ∈ s.toFinset ↔ n ∈ s :=
  List.mem_toFinset

/-! ## Grown ledgers -/

namespace Ledger

variable {l : Ledger}

/-- The ledgers that were loaded, and those that were grown from them by recording albums. -/
inductive Grown : Ledger → Prop where
  | loaded {fs : FileSystem} {path : Path} {l : Ledger} : (load fs path).result = .ok l → Grown l
  | recorded {l : Ledger} (year album : String) (raw : NameSet) : Grown l →
      Grown (l.update year album raw)

/-- No album of a grown ledger has a name twice: a load drops repetitions, and a recording adds only
names that are new. -/
theorem Grown.nodup_names (h : l.Grown) (year album : String) : (l.names year album).Nodup := by
  induction h generalizing year album with
  | loaded hload =>
    obtain ⟨found, -, rfl⟩ := load_eq_ok_iff.1 hload
    exact (isDuplicateFree_dedup found).nodup_names year album
  | recorded y a raw _ ih =>
    rw [names_update]
    split_ifs
    · exact nodup_extend (ih y a) raw
    · exact ih year album

end Ledger

namespace Reconcile

variable {fs : FileSystem} {c : Config} {l l' : Ledger} {year name : String}

theorem grown_of_albums {names : List String} {rows : List AlbumCounts} (hl : l.Grown)
    (h : (albums fs c year names l).result = .ok (l', rows)) : l'.Grown := by
  induction names generalizing l rows with
  | nil =>
    obtain ⟨rfl, rfl⟩ := Prod.mk.inj (Except.ok.inj h)
    exact hl
  | cons name rest ih =>
    obtain ⟨raw, edited, more, -, -, hmore, -⟩ := albums_cons_eq_ok h
    exact ih (.recorded year name raw hl) hmore

theorem grown_of_years {years : List String} {reports : List YearReport} (hl : l.Grown)
    (h : (Reconcile.years fs c years l).result = .ok (l', reports)) : l'.Grown := by
  induction years generalizing l reports with
  | nil =>
    obtain ⟨rfl, rfl⟩ := Prod.mk.inj (Except.ok.inj h)
    exact hl
  | cons year rest ih =>
    obtain ⟨names, l₁, rows, more, -, halbums, hmore, -⟩ := years_cons_eq_ok h
    exact ih (grown_of_albums hl halbums) hmore

/-- A run grows the ledger that it is given. -/
theorem grown_of_run {r : Report} (hl : l.Grown) (h : (run fs c l).result = .ok (l', r)) :
    l'.Grown := by
  obtain ⟨years, -, hyears⟩ := run_eq_ok h
  exact grown_of_years hl hyears

end Reconcile

/-! ## Counts -/

namespace AlbumCounts

/-- Whether the counts are those of an album with the names `known` recorded before, the raw files
`raws` and the pictures `pictures`. -/
structure IsTally (known raws pictures : Finset String) (counts : AlbumCounts) : Prop where
  total : counts.total = (known ∪ raws).card
  deleted : counts.deleted = (known \ raws).card
  edited : counts.edited = (raws ∩ pictures).card
  pending : counts.pending = (raws \ pictures).card
  sum : counts.total = counts.edited + counts.deleted + counts.pending
  complete : counts.isComplete ↔ raws ⊆ pictures

/-- What is recorded after a scan is what was recorded before, and the scan. -/
theorem toFinset_extend (known : List String) (raw : NameSet) :
    (Ledger.extend known raw).toFinset = known.toFinset ∪ raw.toFinset := by
  ext n
  rw [Finset.mem_union, List.mem_toFinset, List.mem_toFinset, NameSet.mem_toFinset, Ledger.extend,
    List.mem_append, List.mem_filter, ← NameSet.mem_iff]
  by_cases hn : n ∈ known <;> simp [hn]

theorem countP_eq_card {names : List String} (h : names.Nodup) (p : String → Prop)
    [DecidablePred p] : names.countP (fun n => p n) = (names.toFinset.filter p).card := by
  rw [List.countP_eq_length_filter, ← List.toFinset_card_of_nodup (h.filter _),
    List.toFinset_filter]
  simp

/-- The counts after a scan was recorded are the sizes of the sets. -/
theorem isTally_count (name : String) {known : List String} (h : known.Nodup)
    (raw edited : NameSet) :
    IsTally known.toFinset raw.toFinset edited.toFinset
      (count name (Ledger.extend known raw) raw edited) := by
  have hnodup := Ledger.nodup_extend h raw
  have htotal : (count name (Ledger.extend known raw) raw edited).total =
      (known.toFinset ∪ raw.toFinset).card := by
    rw [← toFinset_extend, List.toFinset_card_of_nodup hnodup]
    rfl
  have hdeleted : (count name (Ledger.extend known raw) raw edited).deleted =
      (known.toFinset \ raw.toFinset).card := by
    show (Ledger.extend known raw).countP (fun n => n ∉ raw) = _
    rw [countP_eq_card hnodup, toFinset_extend]
    congr 1
    ext n
    by_cases hn : n ∈ raw <;> simp [hn]
  have hedited : (count name (Ledger.extend known raw) raw edited).edited =
      (raw.toFinset ∩ edited.toFinset).card := by
    show (Ledger.extend known raw).countP (fun n => n ∈ raw ∧ n ∈ edited) = _
    rw [countP_eq_card hnodup, toFinset_extend]
    congr 1
    ext n
    by_cases hn : n ∈ raw <;> simp [hn]
  -- the union falls into what is no raw file, what is edited, and what is left
  have hunion : (known.toFinset ∪ raw.toFinset).card =
      (known.toFinset \ raw.toFinset).card + raw.toFinset.card :=
    (Finset.card_sdiff_add_card _ _).symm
  have hraw : (raw.toFinset ∩ edited.toFinset).card + (raw.toFinset \ edited.toFinset).card =
      raw.toFinset.card := Finset.card_inter_add_card_sdiff _ _
  have hpending : (count name (Ledger.extend known raw) raw edited).pending =
      (raw.toFinset \ edited.toFinset).card := by
    unfold pending
    omega
  refine ⟨htotal, hdeleted, hedited, hpending, by omega, ?_⟩
  rw [isComplete, hpending, beq_iff_eq, Finset.card_eq_zero, Finset.sdiff_eq_empty_iff_subset]

/-- Pictures without a raw file do not count. -/
theorem count_congr {name : String} {recorded : List String} {raw edited edited' : NameSet}
    (h : ∀ n ∈ raw, n ∈ edited' ↔ n ∈ edited) :
    count name recorded raw edited' = count name recorded raw edited := by
  have hboth : (fun n => decide (n ∈ raw ∧ n ∈ edited')) =
      fun n => decide (n ∈ raw ∧ n ∈ edited) := by
    funext n
    exact decide_eq_decide.2 (and_congr_right (h n))
  unfold count
  rw [hboth]

end AlbumCounts

namespace Reconcile

variable {fs : FileSystem} {c : Config} {l : Ledger} {year name : String} {counts : AlbumCounts}

/-- An album succeeds if both of its scans do. -/
theorem album_eq_ok_iff : (album fs c l year name).2.result = .ok counts ↔ ∃ raw edited,
    (Scan.raws fs (albumFolder c.source year name)).result = .ok raw ∧
      (Scan.edits fs (albumFolder c.dest year name)).result = .ok edited ∧
      counts = .count name (Ledger.extend (l.names year name) raw) raw edited := by
  rw [result_album]
  cases hraw : (Scan.raws fs (albumFolder c.source year name)).result with
  | error f => simp
  | ok raw =>
    have hnames : (l.update year name raw).names year name =
        Ledger.extend (l.names year name) raw := by
      rw [Ledger.names_update, if_pos ⟨rfl, rfl⟩]
    cases hedit : (Scan.edits fs (albumFolder c.dest year name)).result with
    | error f => simp
    | ok edited => simp [hnames, eq_comm]

/-- If no name of an album is recorded twice, as in every grown ledger, its counts are the sizes of
sets; what is edited and pending is then the same for every such ledger, and pictures without a raw
file change nothing. -/
theorem album_tallies :
    (∀ l : Ledger, l.Grown → ∀ year name, (l.names year name).Nodup) ∧
      ∀ fs c l year name counts, (l.names year name).Nodup →
        (album fs c l year name).2.result = .ok counts → ∃ raw edited,
          (Scan.raws fs (albumFolder c.source year name)).result = .ok raw ∧
          (Scan.edits fs (albumFolder c.dest year name)).result = .ok edited ∧
          counts.IsTally (l.names year name).toFinset raw.toFinset edited.toFinset ∧
          (∀ l₂ : Ledger, (l₂.names year name).Nodup → ∃ counts₂,
            (album fs c l₂ year name).2.result = .ok counts₂ ∧ counts₂.edited = counts.edited ∧
              counts₂.pending = counts.pending ∧ counts₂.isComplete = counts.isComplete) ∧
          ∀ fs₂ c₂ edited₂, (Scan.raws fs₂ (albumFolder c₂.source year name)).result = .ok raw →
            (Scan.edits fs₂ (albumFolder c₂.dest year name)).result = .ok edited₂ →
            (∀ n ∈ raw, n ∈ edited₂ ↔ n ∈ edited) →
            (album fs₂ c₂ l year name).2.result = .ok counts := by
  refine ⟨fun l hl => hl.nodup_names, ?_⟩
  intro fs c l year name counts hl h
  obtain ⟨raw, edited, hraw, hedit, rfl⟩ := album_eq_ok_iff.1 h
  have htally := AlbumCounts.isTally_count name hl raw edited
  refine ⟨raw, edited, hraw, hedit, htally, ?_, ?_⟩
  · intro l₂ hl₂
    have htally₂ := AlbumCounts.isTally_count name hl₂ raw edited
    refine ⟨_, album_eq_ok_iff.2 ⟨raw, edited, hraw, hedit, rfl⟩, ?_, ?_, ?_⟩
    · rw [htally₂.edited, htally.edited]
    · rw [htally₂.pending, htally.pending]
    · rw [Bool.eq_iff_iff, htally₂.complete, htally.complete]
  · intro fs₂ c₂ edited₂ hraw₂ hedit₂ hagree
    refine album_eq_ok_iff.2 ⟨raw, edited₂, hraw₂, hedit₂, ?_⟩
    rw [AlbumCounts.count_congr hagree]

/-- An album with a new raw file that has no picture, and a picture that has no raw file. -/
def halfEdited : FileSystem :=
  .ofPaths ["/raws", "/raws/2023", "/raws/2023/Trip", "/edits", "/edits/2023", "/edits/2023/Trip"]
    ["/raws/2023/Trip/A.NEF", "/raws/2023/Trip/B.NEF", "/edits/2023/Trip/A.jpg",
      "/edits/2023/Trip/D.jpg"]

/-- A run over the two roots. -/
def halfEditedRoots : Config where
  source := .ofString "/raws"
  dest := .ofString "/edits"
  ledger := .ofString "/counts.json"
  output := .ofString "/photo_data.js"
  format := .json

/-- The album's ledger before, with a name whose raw file is gone. -/
def halfKnown : Ledger := Ledger.empty.update "2023" "Trip" (.ofList ["A", "C"])

theorem album_tallies_halfEdited :
    (halfKnown.names "2023" "Trip").Nodup ∧
      (album halfEdited halfEditedRoots halfKnown "2023" "Trip").2.result = .ok ⟨"Trip", 3, 1, 1⟩ ∧
      ∃ raw edited : NameSet, AlbumCounts.IsTally (halfKnown.names "2023" "Trip").toFinset
        raw.toFinset edited.toFinset ⟨"Trip", 3, 1, 1⟩ := by
  have hnodup : (halfKnown.names "2023" "Trip").Nodup := by decide +kernel
  have hok : (album halfEdited halfEditedRoots halfKnown "2023" "Trip").2.result =
      .ok ⟨"Trip", 3, 1, 1⟩ := by decide +kernel
  obtain ⟨raw, edited, -, -, htally, -⟩ := album_tallies.2 _ _ _ _ _ _ hnodup hok
  exact ⟨hnodup, hok, raw, edited, htally⟩

end Reconcile

end PhotoTally
