import PhotoTally.Proofs.Ledger.Albums
import PhotoTally.Proofs.Text.Order

/-!
# Recording scans

One recording puts the new names of a scan behind those that an album has, ascending, and changes
no other album (`extends_extend`, `names_update`).  After any number of them, on whatever albums, an
album has the names of its own scans in the order in which these were recorded (`names_recordAll`).
So the recordings of different albums can be told apart and put in another order
(`recordAll_congr`), and one that was made before adds nothing (`update_of_mem`).
-/

namespace PhotoTally

theorem TextMap.update_eq_self {α : Type} {m : TextMap α} {k : String} {v : α}
    {f : Option α → α} (hget : m.get? k = some v) (hf : f (some v) = v) : m.update k f = m := by
  ext j : 1
  rw [get?_update]
  split_ifs with hj
  · rw [hget, hf, hj, hget]
  · rfl

namespace Ledger

variable {l : Ledger} {year album : String} {known now next : List String} {raw : NameSet}
  {scans : List NameSet}

/-! ## The names of an album -/

/-- Whether `now` is `known` with the names of a scan behind it that were not known, each once, and
ascending byte by byte. -/
def Extends (known : List String) (raw : NameSet) (now : List String) : Prop :=
  ∃ added, now = known ++ added ∧ (added.Pairwise fun m n => Text.bytes m < Text.bytes n) ∧
    ∀ n, n ∈ added ↔ n ∈ raw ∧ n ∉ known

theorem extends_extend (known : List String) (raw : NameSet) :
    Extends known raw (extend known raw) := by
  refine ⟨_, rfl, ?_, fun n => ?_⟩
  · exact (raw.ascending.imp fun hlt => Text.bytes_lt_bytes hlt).filter _
  · rw [List.mem_filter, NameSet.mem_iff]
    simp

theorem Extends.mem_iff (h : Extends known raw now) {n : String} :
    n ∈ now ↔ n ∈ known ∨ n ∈ raw := by
  obtain ⟨added, rfl, -, hadded⟩ := h
  rw [List.mem_append, hadded]
  by_cases hn : n ∈ known <;> simp [hn]

/-- A known name is there as often as before, and a new one once. -/
theorem Extends.count_eq (h : Extends known raw now) (n : String) :
    now.count n = if n ∈ known then known.count n else if n ∈ raw then 1 else 0 := by
  obtain ⟨added, rfl, hlt, hadded⟩ := h
  have hnodup : added.Nodup := Text.nodup_of_ascending hlt
  rw [List.count_append, hnodup.count]
  by_cases hknown : n ∈ known
  · have hnot : n ∉ added := fun hn => ((hadded n).1 hn).2 hknown
    rw [if_pos hknown, if_neg hnot, Nat.add_zero]
  · rw [if_neg hknown, List.count_eq_zero_of_not_mem hknown, Nat.zero_add]
    refine if_congr ?_ rfl rfl
    rw [hadded, and_iff_left hknown]

theorem subset_extend (known : List String) (raw : NameSet) :
    ∀ n ∈ raw, n ∈ extend known raw := fun _ hn =>
  (extends_extend known raw).mem_iff.2 (.inr hn)

theorem extend_eq_self (h : ∀ n ∈ raw, n ∈ known) : extend known raw = known := by
  have hnew : (raw.toList.filter fun n => !known.contains n) = [] := by
    rw [List.filter_eq_nil_iff]
    intro n hn
    simpa using h n hn
  rw [extend, hnew, List.append_nil]

theorem length_extend (known : List String) (raw : NameSet) :
    (extend known raw).length = known.length + raw.toList.countP fun n => n ∉ known := by
  rw [extend, List.length_append, ← List.countP_eq_length_filter]
  congr 2
  funext n
  simp

/-! ## One recording -/

theorem names_update (l : Ledger) (year album y a : String) (raw : NameSet) :
    (l.update year album raw).names y a =
      if y = year ∧ a = album then extend (l.names year album) raw else l.names y a := by
  unfold names
  rw [album?_update]
  split_ifs
  · rfl
  · rfl

theorem years_update_of_ne {y : String} (h : y ≠ year) :
    (l.update year album raw).years.get? y = l.years.get? y := by
  unfold update record
  exact TextMap.get?_update_of_ne _ h _

theorem mem_years_update {y : String} :
    y ∈ (l.update year album raw).years.keys ↔ y = year ∨ y ∈ l.years.keys := by
  rw [TextMap.mem_keys_iff, TextMap.mem_keys_iff, update, record, TextMap.get?_update]
  split_ifs with hy
  · simp [hy]
  · simp [hy]

/-- Recording names that are all known changes nothing. -/
theorem update_eq_self (hknown : l.album? year album = some known) (h : ∀ n ∈ raw, n ∈ known) :
    l.update year album raw = l := by
  obtain ⟨albums, hyear, halbum⟩ := Option.bind_eq_some_iff.1 hknown
  have hnames : l.names year album = known := by rw [names, hknown, Option.getD_some]
  have hinner : albums.update album (fun _ => known) = albums := TextMap.update_eq_self halbum rfl
  have houter := TextMap.update_eq_self
    (f := fun albums => (albums.getD .empty).update album fun _ => known) hyear hinner
  unfold update record
  simp only [hnames, extend_eq_self h, houter]

/-- A recording adds its album to those that are recorded, unless it is one of them. -/
theorem albums_update_perm (l : Ledger) (year album : String) (raw : NameSet) :
    (l.update year album raw).albums.Perm
      (if (l.album? year album).isNone then (year, album) :: l.albums else l.albums) := by
  have hmem : ∀ k, k ∈ (l.update year album raw).albums ↔ k = (year, album) ∨ k ∈ l.albums := by
    rintro ⟨y, a⟩
    rw [mem_albums_iff, mem_albums_iff, album?_update, Prod.mk.injEq]
    split_ifs with hkey
    · simp [hkey]
    · simp [hkey]
  split_ifs with hnone
  · have hnot : (year, album) ∉ l.albums := by
      rw [mem_albums_iff, Option.isNone_iff_eq_none.1 hnone]
      simp
    refine (List.perm_ext_iff_of_nodup (nodup_albums _)
      (List.nodup_cons.2 ⟨hnot, l.nodup_albums⟩)).2 fun k => ?_
    rw [hmem, List.mem_cons]
  · refine (List.perm_ext_iff_of_nodup (nodup_albums _) l.nodup_albums).2 fun k => ?_
    rw [hmem, or_iff_right_of_imp]
    rintro rfl
    exact mem_albums_iff.2 (Option.ne_none_iff_exists'.1 (by simpa using hnone))

theorem albumCount_update (l : Ledger) (year album : String) (raw : NameSet) :
    (l.update year album raw).albumCount =
      l.albumCount + if (l.album? year album).isNone then 1 else 0 := by
  rw [albumCount_eq, albumCount_eq, (l.albums_update_perm year album raw).length_eq]
  split_ifs
  · rfl
  · rfl

theorem sum_map_single {α : Type} [DecidableEq α] {keys : List α} (h : keys.Nodup) {a : α}
    (ha : a ∈ keys) (c : Nat) : (keys.map fun k => if k = a then c else 0).sum = c := by
  rw [List.sum_map_eq_nsmul_single a _ fun k hk _ => if_neg hk, h.count, if_pos ha, one_nsmul,
    if_pos rfl]

/-- A recording adds as many names as its scan has new ones. -/
theorem fileCount_update (l : Ledger) (year album : String) (raw : NameSet) :
    (l.update year album raw).fileCount =
      l.fileCount + raw.toList.countP fun n => n ∉ l.names year album := by
  have hperm := l.albums_update_perm year album raw
  have hkey : (year, album) ∈ (l.update year album raw).albums :=
    mem_albums_iff.2 ⟨_, album?_update_self l year album raw⟩
  -- the album may be new to the sum; it then had no names
  have hbefore : ((l.update year album raw).albums.map fun k => (l.names k.1 k.2).length).sum =
      l.fileCount := by
    rw [(hperm.map _).sum_eq, fileCount_eq]
    split_ifs with hnone
    · have hnil : l.names year album = [] := by
        rw [names, Option.isNone_iff_eq_none.1 hnone]
        rfl
      rw [List.map_cons, List.sum_cons, hnil, List.length_nil, Nat.zero_add]
    · rfl
  have hnow : ∀ k : String × String, ((l.update year album raw).names k.1 k.2).length =
      (l.names k.1 k.2).length +
        if k = (year, album) then raw.toList.countP fun n => n ∉ l.names year album else 0 := by
    rintro ⟨y, a⟩
    by_cases hya : y = year ∧ a = album
    · obtain ⟨rfl, rfl⟩ := hya
      rw [names_update, if_pos ⟨rfl, rfl⟩, if_pos rfl, length_extend]
    · rw [names_update, if_neg hya, if_neg fun h => hya (Prod.mk.inj h), Nat.add_zero]
  rw [fileCount_eq, List.map_congr_left fun k _ => hnow k, List.sum_map_add, hbefore,
    sum_map_single (nodup_albums _) hkey]

/-! ## Any number of recordings -/

/-- A scan that is recorded, and the album that it is of. -/
structure Recording where
  year : String
  album : String
  raw : NameSet
  deriving DecidableEq

/-- The ledger after recordings, one after the other. -/
def recordAll (l : Ledger) (recordings : List Recording) : Ledger :=
  recordings.foldl (fun l k => l.update k.year k.album k.raw) l

/-- The scans of an album among recordings, in the order in which they are recorded. -/
def scansOf (year album : String) (recordings : List Recording) : List NameSet :=
  (recordings.filter fun k => k.year = year ∧ k.album = album).map (·.raw)

/-- Whether `now` is `known` with the new names of each of the scans behind it, one scan after the
other. -/
inductive Appends : List String → List NameSet → List String → Prop where
  | none (known : List String) : Appends known [] known
  | more {known next now : List String} {raw : NameSet} {scans : List NameSet} :
      Extends known raw next → Appends next scans now → Appends known (raw :: scans) now

theorem appends_foldl (known : List String) (scans : List NameSet) :
    Appends known scans (scans.foldl extend known) := by
  induction scans generalizing known with
  | nil => exact .none known
  | cons raw scans ih => exact .more (extends_extend known raw) (ih _)

theorem Appends.isInitial (h : Appends known scans now) : known <+: now := by
  induction h with
  | none known => exact List.prefix_rfl
  | more hnext _ ih =>
    obtain ⟨added, rfl, -⟩ := hnext
    exact (List.prefix_append _ added).trans ih

theorem Appends.mem_iff (h : Appends known scans now) {n : String} :
    n ∈ now ↔ n ∈ known ∨ ∃ raw ∈ scans, n ∈ raw := by
  induction h with
  | none known => simp
  | more hnext _ ih => rw [ih, hnext.mem_iff, List.exists_mem_cons_iff, or_assoc]

/-- However often a scan has it, a new name is there once. -/
theorem Appends.count_eq (h : Appends known scans now) (n : String) :
    now.count n =
      if n ∈ known then known.count n else if ∃ raw ∈ scans, n ∈ raw then 1 else 0 := by
  induction h with
  | none known =>
    by_cases hknown : n ∈ known
    · rw [if_pos hknown]
    · rw [if_neg hknown, List.count_eq_zero_of_not_mem hknown]
      simp
  | @more known next now raw scans hnext _ ih =>
    rw [ih, hnext.count_eq]
    simp only [hnext.mem_iff, List.exists_mem_cons_iff]
    by_cases hknown : n ∈ known
    · simp [hknown]
    · by_cases hraw : n ∈ raw <;> simp [hknown, hraw]

variable {recordings more : List Recording}

theorem recordAll_append (l : Ledger) (recordings more : List Recording) :
    l.recordAll (recordings ++ more) = (l.recordAll recordings).recordAll more :=
  List.foldl_append

theorem scansOf_append (year album : String) (recordings more : List Recording) :
    scansOf year album (recordings ++ more) =
      scansOf year album recordings ++ scansOf year album more := by
  rw [scansOf, List.filter_append, List.map_append]
  rfl

theorem scansOf_cons_self (k : Recording) (rest : List Recording) :
    scansOf k.year k.album (k :: rest) = k.raw :: scansOf k.year k.album rest := by
  rw [scansOf, List.filter_cons_of_pos (by simp), List.map_cons]
  rfl

theorem scansOf_cons_of_ne {k : Recording} (hk : ¬ (k.year = year ∧ k.album = album))
    (rest : List Recording) :
    scansOf year album (k :: rest) = scansOf year album rest := by
  rw [scansOf, List.filter_cons_of_neg (by simpa using hk)]
  rfl

/-- What the scans of an album come to, the recordings of others in between. -/
theorem album?_recordAll (l : Ledger) (recordings : List Recording) (year album : String) :
    (l.recordAll recordings).album? year album =
      if scansOf year album recordings = [] then l.album? year album
      else some ((scansOf year album recordings).foldl extend (l.names year album)) := by
  induction recordings generalizing l with
  | nil => rfl
  | cons k rest ih =>
    rw [show l.recordAll (k :: rest) = (l.update k.year k.album k.raw).recordAll rest from rfl, ih]
    by_cases hk : k.year = year ∧ k.album = album
    · obtain ⟨rfl, rfl⟩ := hk
      have hnames : (l.update k.year k.album k.raw).names k.year k.album =
          extend (l.names k.year k.album) k.raw := by
        rw [names_update, if_pos ⟨rfl, rfl⟩]
      rw [scansOf_cons_self, if_neg (List.cons_ne_nil _ _), List.foldl_cons, hnames,
        album?_update_self]
      split_ifs with hrest
      · rw [hrest, List.foldl_nil]
      · rfl
    · have hk' : ¬ (year = k.year ∧ album = k.album) := fun h => hk ⟨h.1.symm, h.2.symm⟩
      rw [scansOf_cons_of_ne hk, names_update, album?_update, if_neg hk', if_neg hk']

theorem names_recordAll (l : Ledger) (recordings : List Recording) (year album : String) :
    (l.recordAll recordings).names year album =
      (scansOf year album recordings).foldl extend (l.names year album) := by
  unfold names
  rw [album?_recordAll]
  split_ifs with hnone
  · rw [hnone]
    rfl
  · rfl

theorem scansOf_eq_nil_iff : scansOf year album recordings = [] ↔
    ∀ k ∈ recordings, ¬ (k.year = year ∧ k.album = album) := by
  rw [scansOf, List.map_eq_nil_iff, List.filter_eq_nil_iff]
  simp only [decide_eq_true_eq]

theorem mem_scansOf_iff : raw ∈ scansOf year album recordings ↔
    ∃ k ∈ recordings, (k.year = year ∧ k.album = album) ∧ k.raw = raw := by
  simp [scansOf, and_assoc]

theorem mem_years_recordAll (l : Ledger) (recordings : List Recording) (y : String) :
    y ∈ (l.recordAll recordings).years.keys ↔
      y ∈ l.years.keys ∨ ∃ album, scansOf y album recordings ≠ [] := by
  have hexists (recordings : List Recording) :
      (∃ album, scansOf y album recordings ≠ []) ↔ ∃ k ∈ recordings, k.year = y := by
    simp only [ne_eq, scansOf_eq_nil_iff, not_forall, not_not]
    constructor
    · rintro ⟨album, k, hk, hyear, -⟩
      exact ⟨k, hk, hyear⟩
    · rintro ⟨k, hk, hyear⟩
      exact ⟨k.album, k, hk, hyear, rfl⟩
  rw [hexists]
  induction recordings generalizing l with
  | nil => simp [recordAll]
  | cons k rest ih =>
    have hrest := ih (l.update k.year k.album k.raw)
    rw [mem_years_update, eq_comm, or_assoc, or_left_comm] at hrest
    rw [List.exists_mem_cons_iff]
    exact hrest

/-- The ledger depends only on the scans of each album and on their order. -/
theorem recordAll_congr
    (h : ∀ year album, scansOf year album recordings = scansOf year album more) :
    l.recordAll recordings = l.recordAll more := by
  refine eq_of_album? (fun year => ?_) fun year album => ?_
  · rw [mem_years_recordAll, mem_years_recordAll]
    simp only [h]
  · rw [album?_recordAll, album?_recordAll, h]

/-- A recording that was made before adds nothing. -/
theorem update_of_mem {k : Recording} (h : k ∈ recordings) :
    (l.recordAll recordings).update k.year k.album k.raw = l.recordAll recordings := by
  have hscan : k.raw ∈ scansOf k.year k.album recordings :=
    mem_scansOf_iff.2 ⟨k, h, ⟨rfl, rfl⟩, rfl⟩
  have hknown := l.album?_recordAll recordings k.year k.album
  rw [if_neg (List.ne_nil_of_mem hscan)] at hknown
  refine update_eq_self hknown fun n hn => ?_
  exact (appends_foldl _ _).mem_iff.2 (.inr ⟨k.raw, hscan, hn⟩)

/-- Recordings of different albums can be exchanged. -/
theorem update_comm (l : Ledger) {year album y a : String} (h : ¬ (y = year ∧ a = album))
    (raw raw₂ : NameSet) :
    (l.update year album raw).update y a raw₂ = (l.update y a raw₂).update year album raw := by
  let j : Recording := ⟨year, album, raw⟩
  let k : Recording := ⟨y, a, raw₂⟩
  refine @recordAll_congr l ([j] ++ [k]) ([k] ++ [j]) fun year' album' => ?_
  rw [scansOf_append, scansOf_append]
  by_cases hk : k.year = year' ∧ k.album = album'
  · have hj : scansOf year' album' [j] = [] :=
      scansOf_cons_of_ne (fun hj => h ⟨hk.1.trans hj.1.symm, hk.2.trans hj.2.symm⟩) []
    rw [hj, List.append_nil, List.nil_append]
  · have hnone : scansOf year' album' [k] = [] := scansOf_cons_of_ne hk []
    rw [hnone, List.append_nil, List.nil_append]

/-- A recording puts the new names of its scan, ascending, behind those that its album has, and tells
what the album has then; it creates the album if need be and leaves the others as they are.  After
any recordings, however those of different albums are mixed, an album has its first names and behind
them the new ones of its scans, in the order of these, and this is what the last recording of it has
told.  So names stay where they are, none is added twice, and neither a repeated recording nor the
order among albums makes a difference. -/
theorem recordAll_appends (l : Ledger) :
    (∀ year album raw, ∃ added : List String,
      l.record year album raw = (l.update year album raw, l.names year album ++ added) ∧
      (l.update year album raw).album? year album = some (l.names year album ++ added) ∧
      (added.Pairwise fun m n => Text.bytes m < Text.bytes n) ∧
      (∀ n, n ∈ added ↔ n ∈ raw ∧ n ∉ l.names year album) ∧
      (∀ y a, ¬ (y = year ∧ a = album) → (l.update year album raw).album? y a = l.album? y a) ∧
      (l.update year album raw).fileCount = l.fileCount + added.length ∧
      (l.update year album raw).albumCount =
        l.albumCount + (if l.album? year album = none then 1 else 0) ∧
      (l.update year album raw).record year album raw = l.record year album raw) ∧
    (∀ year album raw y a raw₂, ¬ (y = year ∧ a = album) →
      (l.update year album raw).update y a raw₂ = (l.update y a raw₂).update year album raw) ∧
    ∀ recordings : List Recording,
      (∀ year album,
        Appends (l.names year album) (scansOf year album recordings)
          ((l.recordAll recordings).names year album) ∧
        ((l.recordAll recordings).album? year album = none ↔ l.album? year album = none ∧
          ∀ k ∈ recordings, ¬ (k.year = year ∧ k.album = album)) ∧
        (∀ n, ((l.recordAll recordings).names year album).count n =
          if n ∈ l.names year album then (l.names year album).count n
          else if ∃ k ∈ recordings, (k.year = year ∧ k.album = album) ∧ n ∈ k.raw then 1
          else 0) ∧
        (∀ raw, (l.recordAll recordings).record year album raw =
          (l.recordAll (recordings ++ [⟨year, album, raw⟩]),
            (l.recordAll (recordings ++ [⟨year, album, raw⟩])).names year album)) ∧
        ∀ more, (l.recordAll recordings).names year album <+:
          (l.recordAll (recordings ++ more)).names year album) ∧
      (∀ k ∈ recordings, (l.recordAll recordings).record k.year k.album k.raw =
        (l.recordAll recordings, (l.recordAll recordings).names k.year k.album)) ∧
      ∀ others, (∀ year album, scansOf year album recordings = scansOf year album others) →
        l.recordAll recordings = l.recordAll others := by
  refine ⟨fun year album raw => ?_, fun year album raw y a raw₂ h => update_comm l h raw raw₂,
    fun recordings => ⟨fun year album => ?_, fun k hk => ?_, fun others h => recordAll_congr h⟩⟩
  · obtain ⟨added, hnow, hascending, hadded⟩ := extends_extend (l.names year album) raw
    have hself := album?_update_self l year album raw
    have hlength := length_extend (l.names year album) raw
    rw [hnow, List.length_append] at hlength
    refine ⟨added, ?_, hnow ▸ hself, hascending, hadded, fun y a hya => ?_, ?_, ?_, ?_⟩
    · rw [← hnow]
      rfl
    · rw [album?_update, if_neg hya]
    · rw [fileCount_update]
      omega
    · rw [albumCount_update]
      simp only [Option.isNone_iff_eq_none]
    · rw [record_eq_names, update_eq_self hself (subset_extend _ raw), ← record_eq_names]
  · have happends := appends_foldl (l.names year album) (scansOf year album recordings)
    rw [← names_recordAll] at happends
    refine ⟨happends, ?_, fun n => ?_, fun raw => ?_, fun more => ?_⟩
    · rw [album?_recordAll, ← scansOf_eq_nil_iff]
      split_ifs with hnone
      · rw [and_iff_left hnone]
      · simp [hnone]
    · rw [happends.count_eq]
      have hscan : (∃ raw ∈ scansOf year album recordings, n ∈ raw) ↔
          ∃ k ∈ recordings, (k.year = year ∧ k.album = album) ∧ n ∈ k.raw := by
        simp only [mem_scansOf_iff]
        constructor
        · rintro ⟨_, ⟨k, hk, hkey, rfl⟩, hn⟩
          exact ⟨k, hk, hkey, hn⟩
        · rintro ⟨k, hk, hkey, hn⟩
          exact ⟨k.raw, ⟨k, hk, hkey, rfl⟩, hn⟩
      simp only [hscan]
    · rw [recordAll_append]
      exact record_eq_names _ _ _ _
    · rw [recordAll_append, names_recordAll _ more]
      exact (appends_foldl _ _).isInitial
  · rw [record_eq_names, update_of_mem hk]

/-- A ledger in which a name stands twice for one album. -/
def twiceListed : Ledger := ⟨.ofList [("2023", .ofList [("Trip", ["B", "B"])])]⟩

/-- A name that stands twice stays, but none comes to stand twice. -/
theorem recordAll_appends_twiceListed :
    let trip : NameSet := .ofList ["C", "A", "B"]
    let now := twiceListed.recordAll [⟨"2023", "Trip", trip⟩, ⟨"2024", "Sea", .empty⟩,
      ⟨"2023", "Trip", .ofList ["A"]⟩]
    now.years.entries.map (fun e => (e.1, e.2.entries)) =
        [("2023", [("Trip", ["B", "B", "A", "C"])]), ("2024", [("Sea", [])])] ∧
      (twiceListed.update "2023" "Trip" trip).update "2024" "Sea" .empty =
        (twiceListed.update "2024" "Sea" .empty).update "2023" "Trip" trip ∧
      now.record "2023" "Trip" trip = (now, ["B", "B", "A", "C"]) := by
  intro trip now
  obtain ⟨-, hexchange, hall⟩ := recordAll_appends twiceListed
  have hnow : now.years.entries.map (fun e => (e.1, e.2.entries)) =
        [("2023", [("Trip", ["B", "B", "A", "C"])]), ("2024", [("Sea", [])])] ∧
      now.names "2023" "Trip" = ["B", "B", "A", "C"] := by
    decide +kernel
  refine ⟨hnow.1, hexchange _ _ _ _ _ _ (by decide), ?_⟩
  rw [← hnow.2]
  exact (hall _).2.1 ⟨"2023", "Trip", trip⟩ List.mem_cons_self

end Ledger

end PhotoTally
