import PhotoTally.Ledger.Basic
import Mathlib.Tactic

/-!
# The albums of a ledger

A ledger is determined by its years and by the names that it has for each album
(`eq_of_album?`).  `Ledger.albums` lists year and album of everything recorded, each once
(`nodup_albums`), and the counts of a ledger are sums over this list.
-/

namespace PhotoTally

theorem TextMap.nodup_keys {α : Type} (m : TextMap α) : m.keys.Nodup := by
  refine m.keys_ascending.imp ?_
  rintro k _ hlt rfl
  exact String.lt_irrefl k hlt

namespace Ledger

variable {l : Ledger}

/-! ## Equality -/

/-- Ledgers with the same years and the same lists are equal. -/
theorem eq_of_album? {l₁ l₂ : Ledger}
    (hyears : ∀ year, year ∈ l₁.years.keys ↔ year ∈ l₂.years.keys)
    (halbums : ∀ year album, l₁.album? year album = l₂.album? year album) : l₁ = l₂ := by
  have hmap : l₁.years = l₂.years := by
    refine TextMap.ext_get? fun year => ?_
    have hyear := hyears year
    have halbum := halbums year
    rw [TextMap.mem_keys_iff, TextMap.mem_keys_iff] at hyear
    unfold album? at halbum
    cases h₁ : l₁.years.get? year with
    | none =>
      rw [h₁] at hyear
      exact (Option.not_isSome_iff_eq_none.1 fun h => by simpa using hyear.2 h).symm
    | some albums₁ =>
      obtain ⟨albums₂, h₂⟩ := Option.isSome_iff_exists.1 (hyear.1 (by rw [h₁]; rfl))
      rw [h₁, h₂] at halbum
      rw [h₂]
      exact congrArg some (TextMap.ext_get? halbum)
  cases l₁
  cases l₂
  exact congrArg Ledger.mk hmap

/-! ## Albums -/

/-- Year and album of everything recorded. -/
def albums (l : Ledger) : List (String × String) :=
  l.years.entries.flatMap fun e => e.2.keys.map fun album => (e.1, album)

theorem mem_albums_iff {year album : String} :
    (year, album) ∈ l.albums ↔ ∃ names, l.album? year album = some names := by
  unfold albums album?
  simp only [List.mem_flatMap, List.mem_map, Prod.mk.injEq, Option.bind_eq_some_iff]
  constructor
  · rintro ⟨⟨y, record⟩, he, a, ha, rfl, rfl⟩
    obtain ⟨names, hnames⟩ := Option.isSome_iff_exists.1 (TextMap.mem_keys_iff.1 ha)
    exact ⟨names, record, TextMap.get?_eq_some_iff.2 he, hnames⟩
  · rintro ⟨names, record, hrecord, hnames⟩
    exact ⟨(year, record), TextMap.get?_eq_some_iff.1 hrecord, album,
      TextMap.mem_keys_iff.2 (by simp [hnames]), rfl, rfl⟩

theorem mem_albums_of_mem_names {year album n : String} (h : n ∈ l.names year album) :
    (year, album) ∈ l.albums := by
  rw [mem_albums_iff]
  unfold names at h
  cases hnames : l.album? year album with
  | none => simp [hnames] at h
  | some names => exact ⟨names, rfl⟩

theorem nodup_albums (l : Ledger) : l.albums.Nodup := by
  unfold albums
  refine List.nodup_flatMap.2 ⟨fun e _ => ?_, ?_⟩
  · exact (TextMap.nodup_keys e.2).map fun a b hab => (Prod.mk.inj hab).2
  · refine l.years.ascending.imp fun {d e} hlt => ?_
    simp only [Function.onFun, List.disjoint_left, List.mem_map, not_exists, not_and]
    rintro _ ⟨a, -, rfl⟩ b - hab
    rw [(Prod.mk.inj hab).1] at hlt
    exact String.lt_irrefl _ hlt

/-! ## Counts -/

/-- The names of all albums, one album after the other. -/
theorem lists_eq (l : Ledger) : l.lists = l.albums.map fun k => l.names k.1 k.2 := by
  unfold lists albums TextMap.values TextMap.keys
  rw [List.map_flatMap, List.flatMap_map]
  refine List.flatMap_congr fun e he => ?_
  rw [List.map_map, List.map_map]
  refine List.map_congr_left fun a ha => ?_
  have hyear : l.years.get? e.1 = some e.2 := TextMap.get?_eq_some_iff.2 he
  have halbum : e.2.get? a.1 = some a.2 := TextMap.get?_eq_some_iff.2 ha
  simp [names, album?, hyear, halbum]

theorem albumCount_eq (l : Ledger) : l.albumCount = l.albums.length := by
  rw [albumCount, lists_eq, List.length_map]

theorem fileCount_eq (l : Ledger) :
    l.fileCount = (l.albums.map fun k => (l.names k.1 k.2).length).sum := by
  unfold fileCount
  rw [lists_eq, List.length_flatten, List.map_map]
  rfl

end Ledger

end PhotoTally
