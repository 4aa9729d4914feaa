import PhotoTally.Proofs.FileSystem.Change
import PhotoTally.Proofs.Json.Acceptance
import PhotoTally.Proofs.Ledger.RoundTrip

/-!
# What a ledger text says and what is loaded

A text that is accepted spells one document (`decode_eq_ok_iff`), in which a year or an album may be
repeated.  Loading takes the last entry of a repeated key for all of it (`album?_ofDocument`), so
the names in the entries before are lost unless the last one has them too (`load_keeps_last`).
Nothing is loaded that the text does not say.
-/

namespace PhotoTally

namespace TextMap

variable {α β : Type} {k : String} {v : α} {l l₁ l₂ : List (String × α)}

/-! ## Look-ups in lists of entries -/

theorem valueAt_append (k : String) (l₁ l₂ : List (String × α)) :
    valueAt k (l₁ ++ l₂) = (valueAt k l₁).or (valueAt k l₂) := by
  induction l₁ with
  | nil => rfl
  | cons e l₁ ih =>
    rw [List.cons_append, valueAt, valueAt]
    split_ifs
    · rfl
    · exact ih

theorem valueAt_map (f : α → β) (k : String) (l : List (String × α)) :
    valueAt k (l.map fun e => (e.1, f e.2)) = (valueAt k l).map f := by
  induction l with
  | nil => rfl
  | cons e l ih =>
    rw [List.map_cons, valueAt, valueAt]
    split_ifs
    · rfl
    · exact ih

theorem mem_of_valueAt (h : valueAt k l = some v) : (k, v) ∈ l := by
  induction l with
  | nil => cases h
  | cons e l ih =>
    rw [valueAt] at h
    split_ifs at h with hk
    · obtain rfl := Option.some.inj h
      subst hk
      exact List.mem_cons_self
    · exact List.mem_cons_of_mem _ (ih h)

theorem exists_valueAt (h : k ∈ l.map (·.1)) : ∃ v, valueAt k l = some v := by
  induction l with
  | nil => cases h
  | cons e l ih =>
    rw [valueAt]
    split_ifs with hk
    · exact ⟨e.2, rfl⟩
    · exact ih ((List.mem_cons.1 h).resolve_left hk)

theorem valueAt_of_nodup (hl : (l.map (·.1)).Nodup) (h : (k, v) ∈ l) : valueAt k l = some v := by
  induction l with
  | nil => cases h
  | cons e l ih =>
    obtain ⟨hnot, hrest⟩ := List.nodup_cons.1 hl
    rcases List.mem_cons.1 h with rfl | h
    · exact if_pos rfl
    · have hk : k ≠ e.1 := by
        rintro rfl
        exact hnot (List.mem_map.2 ⟨_, h, rfl⟩)
      rw [valueAt, if_neg hk]
      exact ih hrest h

/-- Of several values for a key the map of the pairs has the last. -/
theorem get?_ofList (l : List (String × α)) (k : String) :
    (ofList l).get? k = valueAt k l.reverse := by
  have hfold (m : TextMap α) : (l.foldl (fun m e => m.put e.1 e.2) m).get? k =
      (valueAt k l.reverse).or (m.get? k) := by
    induction l generalizing m with
    | nil => rfl
    | cons e l ih =>
      rw [List.foldl_cons, ih, put, get?_update, List.reverse_cons, valueAt_append, Option.or_assoc]
      congr 1
      rw [valueAt]
      split_ifs
      · rfl
      · rfl
  rw [ofList, hfold, get?_empty, Option.or_none]

end TextMap

namespace Ledger

/-! ## Documents -/

/-- Whether a text spells a document. -/
def Document.IsSpeltBy (d : Document) (text : String) : Prop :=
  Json.SpeltText (Json.SpeltMap (Json.SpeltMap (Json.SpeltSequence Json.SpeltString))) text d

theorem matches_document : Json.Matches Document.read
    (Json.SpeltMap (Json.SpeltMap (Json.SpeltSequence Json.SpeltString))) :=
  Json.matches_map (Json.matches_map (Json.matches_sequence Json.matches_string))

/-- A text is accepted exactly if it spells a document. -/
theorem decode_eq_ok_iff {text : String} {l : Ledger} :
    decode text = .ok l ↔ ∃ d : Document, d.IsSpeltBy text ∧ l = ofDocument d := by
  unfold decode
  rw [map_eq_ok_iff]
  constructor
  · rintro ⟨d, hread, rfl⟩
    exact ⟨d, matches_document.readAll_eq_ok_iff.1 hread, rfl⟩
  · rintro ⟨d, hspelt, rfl⟩
    exact ⟨d, matches_document.readAll_eq_ok_iff.2 hspelt, rfl⟩

namespace Document

variable {d : Document} {year album : String} {names : List String}

/-- Whether a list of names stands somewhere in a document under a year and an album. -/
def Lists (d : Document) (year album : String) (names : List String) : Prop :=
  ∃ albums, (year, albums) ∈ d ∧ (album, names) ∈ albums

/-- The last list of an album in the last entry of a year. -/
def last? (d : Document) (year album : String) : Option (List String) :=
  (TextMap.valueAt year d.reverse).bind fun albums => TextMap.valueAt album albums.reverse

/-- Whether no list has a name that the last list of its album does not have. -/
def IsCumulative (d : Document) : Prop :=
  ∀ year album names, d.Lists year album names →
    ∃ last, d.last? year album = some last ∧ names ⊆ last

/-- Whether no year is repeated, nor an album of a year. -/
def HasDistinctKeys (d : Document) : Prop :=
  (d.map (·.1)).Nodup ∧ ∀ e ∈ d, (e.2.map (·.1)).Nodup

theorem lists_of_last? (h : d.last? year album = some names) : d.Lists year album names := by
  obtain ⟨albums, halbums, hnames⟩ := Option.bind_eq_some_iff.1 h
  exact ⟨albums, List.mem_reverse.1 (TextMap.mem_of_valueAt halbums),
    List.mem_reverse.1 (TextMap.mem_of_valueAt hnames)⟩

/-- Where keys are distinct every list is the last one. -/
theorem HasDistinctKeys.last?_eq (h : d.HasDistinctKeys) (hlists : d.Lists year album names) :
    d.last? year album = some names := by
  obtain ⟨albums, halbums, hnames⟩ := hlists
  obtain ⟨hyears, hkeys⟩ := h
  have hyear : TextMap.valueAt year d.reverse = some albums := by
    refine TextMap.valueAt_of_nodup ?_ (List.mem_reverse.2 halbums)
    rw [List.map_reverse]
    exact List.nodup_reverse.2 hyears
  have halbum : TextMap.valueAt album albums.reverse = some names := by
    refine TextMap.valueAt_of_nodup ?_ (List.mem_reverse.2 hnames)
    rw [List.map_reverse]
    exact List.nodup_reverse.2 (hkeys _ halbums)
  rw [last?, hyear]
  exact halbum

theorem HasDistinctKeys.isCumulative (h : d.HasDistinctKeys) : d.IsCumulative :=
  fun _ _ names hlists => ⟨names, h.last?_eq hlists, List.Subset.refl names⟩

end Document

/-! ## Loading -/

theorem album?_ofDocument (d : Document) (year album : String) :
    (ofDocument d).album? year album = d.last? year album := by
  unfold ofDocument album? Document.last?
  rw [TextMap.get?_ofList, ← List.map_reverse, TextMap.valueAt_map]
  cases TextMap.valueAt year d.reverse with
  | none => rfl
  | some albums => exact TextMap.get?_ofList albums album

theorem mem_keys_ofDocument (d : Document) (year : String) :
    year ∈ (ofDocument d).years.keys ↔ year ∈ d.map (·.1) := by
  unfold ofDocument
  rw [TextMap.mem_keys_iff, TextMap.get?_ofList, ← List.map_reverse, TextMap.valueAt_map,
    Option.isSome_map]
  constructor
  · intro h
    obtain ⟨albums, halbums⟩ := Option.isSome_iff_exists.1 h
    exact List.mem_map_of_mem (List.mem_reverse.1 (TextMap.mem_of_valueAt halbums))
  · intro h
    rw [← List.mem_reverse, ← List.map_reverse] at h
    obtain ⟨albums, halbums⟩ := TextMap.exists_valueAt h
    rw [halbums]
    rfl

theorem keys_dedup (l : Ledger) : l.dedup.years.keys = l.years.keys := by
  unfold dedup TextMap.mapValues TextMap.keys
  rw [List.map_map]
  rfl

theorem mem_firstOccurrences {n : String} {names : List String} :
    n ∈ firstOccurrences names ↔ n ∈ names := List.mem_eraseDups

variable {fs : FileSystem} {path : Path} {text : String} {l : Ledger}

/-- A text that is loaded spells one document.  The ledger has the years of the document, and for
each album the names of its last list, so nothing that the document does not list.  It has all that
the document lists exactly if no list has a name that the last list of its album does not have, as
it is where no key is repeated. -/
theorem load_keeps_last (htext : fs.readText path = .ok text)
    (hload : (load fs path).result = .ok l) :
    ∃ d : Document, d.IsSpeltBy text ∧ (∀ d' : Document, d'.IsSpeltBy text → d' = d) ∧
      (∀ year, year ∈ l.years.keys ↔ year ∈ d.map (·.1)) ∧
      (∀ year album, l.album? year album = (d.last? year album).map firstOccurrences) ∧
      (∀ year album names, l.album? year album = some names →
        ∃ listed, d.Lists year album listed ∧ names ⊆ listed) ∧
      ((∀ year album listed, d.Lists year album listed →
          ∃ names, l.album? year album = some names ∧ listed ⊆ names) ↔ d.IsCumulative) ∧
      (d.HasDistinctKeys → d.IsCumulative) := by
  obtain ⟨found, hspelt, rfl⟩ := load_eq_ok_iff.1 hload
  have hdecode : decode text = .ok found := by
    rcases hspelt with ⟨hmissing, -⟩ | ⟨text', htext', hdecode⟩
    · rw [htext] at hmissing
      cases hmissing
    · rw [htext] at htext'
      obtain rfl := Except.ok.inj htext'
      exact hdecode
  obtain ⟨d, hd, rfl⟩ := decode_eq_ok_iff.1 hdecode
  have halbum (year album : String) : (ofDocument d).dedup.album? year album =
      (d.last? year album).map firstOccurrences := by
    rw [album?_dedup, album?_ofDocument]
  refine ⟨d, hd, fun d' hd' => matches_document.eq_of_speltText hd' hd, fun year => ?_, halbum,
    fun year album names hnames => ?_, ?_, fun h => h.isCumulative⟩
  · rw [keys_dedup, mem_keys_ofDocument]
  · rw [halbum, Option.map_eq_some_iff] at hnames
    obtain ⟨last, hlast, rfl⟩ := hnames
    exact ⟨last, Document.lists_of_last? hlast, fun n hn => mem_firstOccurrences.1 hn⟩
  · refine forall₃_congr fun year album listed => imp_congr_right fun _ => ?_
    rw [halbum]
    constructor
    · rintro ⟨names, hnames, hsub⟩
      obtain ⟨last, hlast, rfl⟩ := Option.map_eq_some_iff.1 hnames
      exact ⟨last, hlast, fun n hn => mem_firstOccurrences.1 (hsub hn)⟩
    · rintro ⟨last, hlast, hsub⟩
      rw [hlast]
      exact ⟨_, rfl, fun n hn => mem_firstOccurrences.2 (hsub hn)⟩

/-- A ledger text in which a year is repeated. -/
def merged : String :=
  "\x7b\"2023\":\x7b\"Trip\":[\"A\"],\"Sea\":[\"C\"]\x7d," ++
    "\"2023\":\x7b\"Trip\":[\"B\"]\x7d\x7d"

def mergedDocument : Document :=
  [("2023", [("Trip", ["A"]), ("Sea", ["C"])]), ("2023", [("Trip", ["B"])])]

def mergedFile : FileSystem :=
  (FileSystem.ofPaths [] []).put (Path.ofString "/counts.json").place
    (.file Mode.plainFile merged.toUTF8)

/-- The names and the albums in an entry that is replaced are lost. -/
theorem repeated_year_loses_names :
    let l := ofDocument [("2023", [("Trip", ["B"])])]
    mergedDocument.IsSpeltBy merged ∧ mergedDocument.Lists "2023" "Trip" ["A"] ∧
      mergedDocument.Lists "2023" "Sea" ["C"] ∧
      (load mergedFile (.ofString "/counts.json")).result = .ok l ∧
      l.names "2023" "Trip" = ["B"] ∧ l.album? "2023" "Sea" = none := by
  have hread : Json.readAll Document.read merged = .ok mergedDocument := by decide +kernel
  have hload : (load mergedFile (.ofString "/counts.json")).result =
      .ok (ofDocument [("2023", [("Trip", ["B"])])]) := by
    decide +kernel
  have hfirst : ("2023", [("Trip", ["A"]), ("Sea", ["C"])]) ∈ mergedDocument :=
    List.mem_cons_self
  exact ⟨matches_document.readAll_eq_ok_iff.1 hread, ⟨_, hfirst, by simp⟩, ⟨_, hfirst, by simp⟩,
    hload, by decide +kernel, by decide +kernel⟩

theorem load_keeps_last_merged :
    mergedFile.readText (.ofString "/counts.json") = .ok merged ∧
      ∃ l, (load mergedFile (.ofString "/counts.json")).result = .ok l ∧
        ∃ d : Document, d.IsSpeltBy merged ∧
          ∀ year album, l.album? year album = (d.last? year album).map firstOccurrences := by
  have htext : mergedFile.readText (.ofString "/counts.json") = .ok merged := by decide +kernel
  have hload : (load mergedFile (.ofString "/counts.json")).result =
      .ok (ofDocument [("2023", [("Trip", ["B"])])]) := by
    decide +kernel
  obtain ⟨d, hspelt, -, -, halbum, -⟩ := load_keeps_last htext hload
  exact ⟨htext, _, hload, d, hspelt, halbum⟩

end Ledger

end PhotoTally
