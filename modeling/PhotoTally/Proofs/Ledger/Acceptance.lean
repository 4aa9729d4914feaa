import PhotoTally.Proofs.Json.Value
import PhotoTally.Proofs.Ledger.Albums
import PhotoTally.Proofs.Ledger.Repeated

/-!
# Which files are ledgers

A file is loaded exactly if it is a JSON text of a map of maps of sequences of strings
(`load_accepts`).  Any other file is refused as a whole.  Where no key is repeated the ledger
follows from the entries of the text alone, whatever their order and their spelling, and the warning
about dropped names tells exactly whether a sequence repeats one.
-/

namespace PhotoTally.Ledger

/-! ## Documents as values -/

namespace Document

variable {d d₂ : Document} {text : String} {year album : String} {names : List String}

/-- The value of a ledger text: a map of maps of sequences of strings. -/
def value (d : Document) : Json.Value :=
  .map <| d.map fun year =>
    (year.1, .map <| year.2.map fun album => (album.1, .sequence (album.2.map .text)))

/-- A text is accepted exactly if it is a JSON text of a document's value. -/
theorem isSpeltBy_iff : d.IsSpeltBy text ↔ Json.IsText text d.value :=
  Json.speltText_iff (Json.leaves_map (Json.leaves_map (Json.leaves_sequence Json.leaves_text)))

/-- Whether documents have the same entries, in whatever order. -/
def SameEntries (d d₂ : Document) : Prop :=
  (∀ year, year ∈ d.map (·.1) ↔ year ∈ d₂.map (·.1)) ∧
    ∀ year album names, d.Lists year album names ↔ d₂.Lists year album names

theorem HasDistinctKeys.album?_ofDocument_iff (h : d.HasDistinctKeys) :
    (ofDocument d).album? year album = some names ↔ d.Lists year album names := by
  rw [album?_ofDocument]
  exact ⟨lists_of_last?, h.last?_eq⟩

/-- Where keys are distinct, a document stands for the same ledger in whatever order. -/
theorem SameEntries.ofDocument_eq (h : d.SameEntries d₂) (hd : d.HasDistinctKeys)
    (hd₂ : d₂.HasDistinctKeys) : ofDocument d = ofDocument d₂ := by
  obtain ⟨hyears, hlists⟩ := h
  refine eq_of_album? (fun year => ?_) fun year album => ?_
  · rw [mem_keys_ofDocument, mem_keys_ofDocument]
    exact hyears year
  · refine Option.ext fun names => ?_
    rw [hd.album?_ofDocument_iff, hd₂.album?_ofDocument_iff]
    exact hlists year album names

end Document

/-! ## Dropped names -/

variable {l found : Ledger}

theorem length_firstOccurrences_le (names : List String) :
    (firstOccurrences names).length ≤ names.length :=
  ((nodup_firstOccurrences names).subperm fun _ => mem_firstOccurrences.1).length_le

/-- A list gets shorter exactly if it repeats a name. -/
theorem length_firstOccurrences_eq_iff (names : List String) :
    (firstOccurrences names).length = names.length ↔ names.Nodup := by
  have hnodup := nodup_firstOccurrences names
  constructor
  · intro h
    have hsub : (firstOccurrences names).Subperm names :=
      hnodup.subperm fun _ => mem_firstOccurrences.1
    exact (hsub.perm_of_length_le h.ge).nodup_iff.1 hnodup
  · intro h
    rw [firstOccurrences_of_nodup h]

theorem lists_dedup (l : Ledger) : l.dedup.lists = l.lists.map firstOccurrences := by
  unfold lists dedup TextMap.values TextMap.mapValues
  simp only [List.map_flatMap, List.flatMap_map, List.map_map, Function.comp_def]

theorem mem_lists_iff {names : List String} :
    names ∈ l.lists ↔ ∃ year album, l.album? year album = some names := by
  rw [lists_eq, List.mem_map]
  constructor
  · rintro ⟨⟨year, album⟩, hmem, rfl⟩
    obtain ⟨names, hnames⟩ := mem_albums_iff.1 hmem
    exact ⟨year, album, by simp [Ledger.names, hnames]⟩
  · rintro ⟨year, album, hnames⟩
    exact ⟨(year, album), mem_albums_iff.2 ⟨names, hnames⟩, by simp [Ledger.names, hnames]⟩

/-- Names are dropped exactly if a list repeats one. -/
theorem fileCount_sub_dedup_ne_zero_iff :
    l.fileCount - l.dedup.fileCount ≠ 0 ↔ ¬ l.IsDuplicateFree := by
  have hsum (lists : List (List String)) :
      (lists.map firstOccurrences).flatten.length ≤ lists.flatten.length ∧
        (lists.flatten.length ≤ (lists.map firstOccurrences).flatten.length ↔
          ∀ names ∈ lists, names.Nodup) := by
    induction lists with
    | nil => simp
    | cons names lists ih =>
      have hle := length_firstOccurrences_le names
      have heq := length_firstOccurrences_eq_iff names
      rw [List.forall_mem_cons, ← heq, ← ih.2]
      simp only [List.map_cons, List.flatten_cons, List.length_append]
      omega
  unfold fileCount
  rw [lists_dedup, Nat.sub_ne_zero_iff_lt, ← Nat.not_le, (hsum l.lists).2]
  refine not_congr ?_
  unfold IsDuplicateFree
  constructor
  · intro h year album names hnames
    exact h names (mem_lists_iff.2 ⟨year, album, hnames⟩)
  · intro h names hnames
    obtain ⟨year, album, hnames⟩ := mem_lists_iff.1 hnames
    exact h year album names hnames

/-- The warning is noted exactly if a list repeats a name. -/
theorem duplicatesDropped_mem_ofText_iff {path : Path} {text : String}
    (h : decode text = .ok found) :
    (∃ count, .duplicatesDropped path count ∈ (ofText path text).events) ↔
      ¬ found.IsDuplicateFree := by
  rw [← fileCount_sub_dedup_ne_zero_iff]
  unfold ofText
  rw [h]
  simp only
  split_ifs with hdropped
  · exact iff_of_true ⟨found.fileCount - found.dedup.fileCount, List.mem_cons_self⟩ hdropped
  · refine iff_of_false ?_ hdropped
    rintro ⟨count, hcount⟩
    cases List.mem_singleton.1 hcount

/-! ## Files -/

variable {fs : FileSystem} {path : Path} {contents : ByteArray} {text : String} {d : Document}

/-- What is loaded from a file that can be read depends on its bytes alone. -/
theorem load_of_readBytes (h : fs.readBytes path = .ok contents) :
    load fs path =
      (String.fromUTF8? contents).elim (.fail (.io path .notText)) (ofText path) := by
  unfold load FileSystem.readText
  simp only [h]
  cases String.fromUTF8? contents with
  | none => exact if_neg (by decide)
  | some text => rfl

/-- The text of a document is loaded as the ledger that the document stands for. -/
theorem load_of_isText (hread : fs.readBytes path = .ok contents)
    (htext : String.fromUTF8? contents = some text) (hd : Json.IsText text d.value) :
    load fs path = ofText path text ∧ decode text = .ok (ofDocument d) ∧
      (load fs path).result = .ok (ofDocument d).dedup := by
  have hload := load_of_readBytes hread
  have hdecode := decode_eq_ok_iff.2 ⟨d, Document.isSpeltBy_iff.2 hd, rfl⟩
  rw [htext, Option.elim_some] at hload
  rw [hload, result_ofText, hdecode]
  exact ⟨rfl, rfl, rfl⟩

/-- A text of no document is refused. -/
theorem load_of_not_isText (hread : fs.readBytes path = .ok contents)
    (htext : String.fromUTF8? contents = some text)
    (hnone : ¬ ∃ d : Document, Json.IsText text d.value) :
    ∃ fault, (load fs path).result = .error (.badLedger path fault) := by
  rw [load_of_readBytes hread, htext, Option.elim_some, result_ofText]
  cases hdecode : decode text with
  | error fault => exact ⟨fault, rfl⟩
  | ok found =>
    obtain ⟨d, hd, -⟩ := decode_eq_ok_iff.1 hdecode
    exact absurd ⟨d, Document.isSpeltBy_iff.1 hd⟩ hnone

/-- A file that can be read is loaded exactly if its bytes are text and the text is JSON, a map of
maps of sequences of strings.  Otherwise loading fails, for the bytes or for a place in the text.
Where no key is repeated, what is loaded has the years and the albums of the text and no others,
each album with the first occurrences of its names.  Then the warning about dropped names is noted
exactly if a sequence repeats one, and any text with the same entries is loaded as the same
ledger. -/
theorem load_accepts (hread : fs.readBytes path = .ok contents) :
    ((∃ l, (load fs path).result = .ok l) ↔
        ∃ (text : String) (d : Document), String.fromUTF8? contents = some text ∧
          Json.IsText text d.value) ∧
      (String.fromUTF8? contents = none → (load fs path).result = .error (.io path .notText)) ∧
      (∀ text, String.fromUTF8? contents = some text →
        (¬ ∃ d : Document, Json.IsText text d.value) →
          ∃ fault, (load fs path).result = .error (.badLedger path fault)) ∧
      ∀ (text : String) (d : Document), String.fromUTF8? contents = some text →
        Json.IsText text d.value → d.HasDistinctKeys →
          ∃ l, (load fs path).result = .ok l ∧
            (∀ year, year ∈ l.years.keys ↔ year ∈ d.map (·.1)) ∧
            (∀ year album names, l.album? year album = some names ↔
              ∃ listed, d.Lists year album listed ∧ names = firstOccurrences listed) ∧
            ((∃ count, .duplicatesDropped path count ∈ (load fs path).events) ↔
              ∃ year album names, d.Lists year album names ∧ ¬ names.Nodup) ∧
            ∀ (fs₂ : FileSystem) (path₂ : Path) (text₂ : String) (d₂ : Document),
              fs₂.readBytes path₂ = .ok text₂.toUTF8 → Json.IsText text₂ d₂.value →
              d₂.HasDistinctKeys → d.SameEntries d₂ → (load fs₂ path₂).result = .ok l := by
  have hnotText (h : String.fromUTF8? contents = none) :
      (load fs path).result = .error (.io path .notText) := by
    rw [load_of_readBytes hread, h]
    rfl
  refine ⟨⟨?_, ?_⟩, hnotText, fun text => load_of_not_isText hread, ?_⟩
  · rintro ⟨l, hl⟩
    cases htext : String.fromUTF8? contents with
    | none =>
      rw [hnotText htext] at hl
      cases hl
    | some text =>
      by_contra hnone
      obtain ⟨fault, hfault⟩ := load_of_not_isText hread htext
        fun ⟨d, hd⟩ => hnone ⟨text, d, rfl, hd⟩
      rw [hfault] at hl
      cases hl
  · rintro ⟨text, d, htext, hd⟩
    exact ⟨_, (load_of_isText hread htext hd).2.2⟩
  · intro text d htext hd hkeys
    obtain ⟨hload, hdecode, hresult⟩ := load_of_isText hread htext hd
    refine ⟨_, hresult, fun year => ?_, fun year album names => ?_, ?_, ?_⟩
    · rw [keys_dedup, mem_keys_ofDocument]
    · rw [album?_dedup, Option.map_eq_some_iff]
      refine exists_congr fun listed => ?_
      rw [hkeys.album?_ofDocument_iff, eq_comm]
    · rw [hload, duplicatesDropped_mem_ofText_iff hdecode]
      unfold IsDuplicateFree
      simp only [hkeys.album?_ofDocument_iff, not_forall, exists_prop]
    · intro fs₂ path₂ text₂ d₂ hread₂ hd₂ hkeys₂ hsame
      rw [hsame.ofDocument_eq hkeys hkeys₂]
      exact (load_of_isText hread₂ (fromUTF8?_toUTF8 text₂) hd₂).2.2

/-- A ledger text with blanks, escapes and a repeated name. -/
def spaced : String :=
  " \x7b \"2023\" :\t\x7b\"Sea\":[ ],\"Trip\":[\"\\u0041\", \"A\",\"\\/\"]\x7d\n\x7d"

def spacedDocument : Document := [("2023", [("Sea", []), ("Trip", ["A", "A", "/"])])]

/-- A file system with one file. -/
def oneFile (contents : ByteArray) : FileSystem :=
  (FileSystem.ofPaths [] []).put (Path.ofString "/counts.json").place
    (.file Mode.plainFile contents)

/-- The repeated name is dropped with a warning, and the entries may stand in another order. -/
theorem load_accepts_spaced :
    (oneFile spaced.toUTF8).readBytes (.ofString "/counts.json") = .ok spaced.toUTF8 ∧
      ∃ l, (load (oneFile spaced.toUTF8) (.ofString "/counts.json")).result = .ok l ∧
        (∃ count, .duplicatesDropped (.ofString "/counts.json") count ∈
          (load (oneFile spaced.toUTF8) (.ofString "/counts.json")).events) ∧
        l.album? "2023" "Trip" = some ["A", "/"] := by
  have hread : (oneFile spaced.toUTF8).readBytes (.ofString "/counts.json") =
      .ok spaced.toUTF8 := by
    decide +kernel
  have hspelt : spacedDocument.IsSpeltBy spaced := by
    refine matches_document.readAll_eq_ok_iff.1 ?_
    decide +kernel
  have hlists : spacedDocument.Lists "2023" "Trip" ["A", "A", "/"] :=
    ⟨_, List.mem_cons_self, by simp⟩
  obtain ⟨-, -, -, hdistinct⟩ := load_accepts hread
  obtain ⟨l, hl, -, halbum, hwarned, -⟩ := hdistinct spaced spacedDocument (fromUTF8?_toUTF8 _)
    (Document.isSpeltBy_iff.1 hspelt) (by unfold Document.HasDistinctKeys; decide)
  refine ⟨hread, l, hl, hwarned.2 ⟨_, _, _, hlists, by decide⟩, ?_⟩
  exact (halbum _ _ _).2 ⟨_, hlists, by decide⟩

end PhotoTally.Ledger
