import PhotoTally.Proofs.AtomicWrite.Stages
import PhotoTally.Proofs.Json.Compact
import PhotoTally.Proofs.Ledger.RoundTrip
import PhotoTally.Proofs.Text.Order

/-!
# The ledger's file

A saved ledger is a compact text with ascending keys, and different ledgers have different texts
(`toUTF8_encode_inj`).  Loading gives the saved ledger back without its repetitions, provided that
the new file can be reached through its path and be read (`load_after_save`).
-/

namespace PhotoTally.Ledger

variable {fs : FileSystem} {path : Path} {l : Ledger} {faults : AtomicWrite.Faults}

/-! ## The text -/

/-- Whether the keys of a document ascend byte by byte, on both levels. -/
def Document.IsAscending (d : Document) : Prop :=
  (d.map (·.1)).Pairwise (fun a b => Text.bytes a < Text.bytes b) ∧
    ∀ e ∈ d, (e.2.map (·.1)).Pairwise fun a b => Text.bytes a < Text.bytes b

theorem isAscending_toDocument (l : Ledger) : l.toDocument.IsAscending := by
  have hkeys {α : Type} (m : TextMap α) :
      (m.entries.map (·.1)).Pairwise fun a b => Text.bytes a < Text.bytes b :=
    m.keys_ascending.imp Text.bytes_lt_bytes
  constructor
  · have : l.toDocument.map (·.1) = l.years.entries.map (·.1) := by
      rw [toDocument, List.map_map]
      rfl
    rw [this]
    exact hkeys l.years
  · intro e he
    obtain ⟨year, -, rfl⟩ := List.mem_map.1 he
    exact hkeys year.2

theorem isCompact_write (d : Document) : Json.IsCompact d.write := by
  refine Json.isCompact_writeMap fun e he => ?_
  obtain ⟨year, -, rfl⟩ := List.mem_map.1 he
  refine Json.isCompact_writeMap fun e he => ?_
  obtain ⟨album, -, rfl⟩ := List.mem_map.1 he
  refine Json.isCompact_writeSequence fun w hw => ?_
  obtain ⟨name, -, rfl⟩ := List.mem_map.1 hw
  exact Json.isCompact_quote name

/-- A ledger's text has the entries of the ledger, in this order. -/
theorem readAll_encode (l : Ledger) : Json.readAll Document.read l.encode = .ok l.toDocument := by
  unfold encode
  exact Json.readAll_written (readsBack_document _)

/-- Only equal ledgers are written alike. -/
theorem toUTF8_encode_inj {l₁ l₂ : Ledger} : l₁.encode.toUTF8 = l₂.encode.toUTF8 ↔ l₁ = l₂ := by
  constructor
  · intro h
    have htext : l₁.encode = l₂.encode := by
      have := fromUTF8?_toUTF8 l₁.encode
      rw [h, fromUTF8?_toUTF8] at this
      exact (Option.some.inj this).symm
    have hdecode := decode_encode l₁
    rw [htext, decode_encode] at hdecode
    exact (Except.ok.inj hdecode).symm
  · rintro rfl
    rfl

/-! ## Loading what was saved -/

/-- What is read from the file of a ledger that was saved. -/
theorem readText_save (hsave : (l.save fs path faults).2.result = .ok ()) :
    (l.save fs path faults).1.readText path =
      if ¬ AtomicWrite.IsDirect fs path then .error (.os .notFolder)
      else if ¬ (AtomicWrite.modeFor fs path).grants .read then .error (.os .denied)
      else .ok l.encode := by
  obtain ⟨place, hplace, hwrite⟩ := AtomicWrite.write_of_ok hsave
  have hwrite : (l.save fs path faults).1 =
      fs.put place (AtomicWrite.complete fs path l.encode.toUTF8) := hwrite
  unfold FileSystem.readText FileSystem.readBytes
  rw [hwrite]
  by_cases hdirect : AtomicWrite.IsDirect fs path
  · rw [AtomicWrite.stat_put_of_isDirect hplace rfl hdirect, if_neg (not_not.2 hdirect)]
    simp only [AtomicWrite.complete, Node.mode, AtomicWrite.grants_modeAfter]
    cases (AtomicWrite.modeFor fs path).grants .read with
    | false => rfl
    | true =>
      simp only [Bool.not_true, Bool.false_eq_true, if_false, not_true, fromUTF8?_toUTF8]
  · rw [AtomicWrite.stat_put_of_not_isDirect hplace rfl rfl hdirect, if_pos hdirect]

theorem IsSpeltAt.isLegible (h : l.IsSpeltAt fs path) : AtomicWrite.IsLegible fs path := by
  refine AtomicWrite.isLegible_of_readText ?_
  rcases h with ⟨hread, -⟩ | ⟨text, hread, -⟩
  · exact .inr hread
  · exact .inl ⟨text, hread⟩

/-- A ledger that was saved is spelt in its file, if what was there before was legible. -/
theorem isSpeltAt_save (hsave : (l.save fs path faults).2.result = .ok ())
    (h : AtomicWrite.IsLegible fs path) : l.IsSpeltAt (l.save fs path faults).1 path := by
  refine .inr ⟨l.encode, ?_, decode_encode l⟩
  rw [readText_save hsave, if_neg (not_not.2 h.isDirect), if_neg (not_not.2 h.grants_modeFor)]

/-- A ledger that was saved can be loaded exactly if the way to its file does not go through the
entry that the file has replaced, and the file can be read.  What is loaded then is the ledger
without repetitions.  The file has the ledger's compact text, with ascending keys, and no other
ledger has the same. -/
theorem load_after_save (hsave : (l.save fs path faults).2.result = .ok ()) :
    ((∃ found, (load (l.save fs path faults).1 path).result = .ok found) ↔
        AtomicWrite.IsDirect fs path ∧ (AtomicWrite.modeFor fs path).grants .read = true) ∧
      (∀ found, (load (l.save fs path faults).1 path).result = .ok found →
        found = l.dedup ∧ (l.IsDuplicateFree → found = l)) ∧
      (∃ place mode, AtomicWrite.targetPlace fs path = .ok place ∧
        (l.save fs path faults).1.find? place = some (.file mode l.encode.toUTF8)) ∧
      Json.readAll Document.read l.encode = .ok l.toDocument ∧ l.toDocument.IsAscending ∧
      (∀ c ∈ Json.bare false l.encode.toList, c ∈ Json.marks) ∧
      ∀ l₂ : Ledger, l₂.encode.toUTF8 = l.encode.toUTF8 ↔ l₂ = l := by
  have hread := readText_save hsave
  have hspelt (found : Ledger) : (load (l.save fs path faults).1 path).result = .ok found ↔
      (AtomicWrite.IsDirect fs path ∧ (AtomicWrite.modeFor fs path).grants .read = true) ∧
        found = l.dedup := by
    rw [load_eq_ok_iff]
    unfold IsSpeltAt
    rw [hread]
    split_ifs with hdirect hgrants <;> simp_all [decode_encode]
  refine ⟨?_, ?_, ?_, readAll_encode l, isAscending_toDocument l, ?_, fun l₂ => toUTF8_encode_inj⟩
  · constructor
    · rintro ⟨found, hfound⟩
      exact ((hspelt found).1 hfound).1
    · intro h
      exact ⟨l.dedup, (hspelt _).2 ⟨h, rfl⟩⟩
  · intro found hfound
    obtain ⟨-, rfl⟩ := (hspelt found).1 hfound
    exact ⟨rfl, IsDuplicateFree.dedup_eq⟩
  · obtain ⟨place, hplace, hreplaced⟩ := AtomicWrite.replaced_of_write hsave
    exact ⟨place, _, hplace, hreplaced.file⟩
  · unfold encode
    rw [String.toList_ofList]
    exact (isCompact_write l.toDocument).mem_marks

/-- A folder with a link to itself, and a file that may be written but not read. -/
def awkward : FileSystem :=
  let looped := (FileSystem.ofPaths ["/out"] []).put (Path.ofString "/out/here").place
    (.link (.ofString "."))
  looped.put (Path.ofString "/hidden").place (.file 0o200 "\x7b\x7d".toUTF8)

/-- A ledger that was saved need not be there to be loaded: the file can bar the way to itself, and
it cannot be read if the one before it could not. -/
theorem saved_but_not_loaded :
    (empty.save awkward (.ofString "/out/here/here") AtomicWrite.noFaults).2.result = .ok () ∧
      (load (empty.save awkward (.ofString "/out/here/here") AtomicWrite.noFaults).1
        (.ofString "/out/here/here")).result =
          .error (.io (.ofString "/out/here/here") (.os .notFolder)) ∧
      (empty.save awkward (.ofString "/hidden") AtomicWrite.noFaults).2.result = .ok () ∧
      (load (empty.save awkward (.ofString "/hidden") AtomicWrite.noFaults).1
        (.ofString "/hidden")).result = .error (.io (.ofString "/hidden") (.os .denied)) := by
  decide +kernel

/-- A ledger that repeats a name. -/
def repetitive : Ledger :=
  .ofDocument [("2023", [("Trip", ["A", "B", "A"]), ("", [])]), ("", [])]

theorem load_after_save_repetitive :
    (repetitive.save awkward (.ofString "/counts.json") AtomicWrite.noFaults).2.result = .ok () ∧
      (load (repetitive.save awkward (.ofString "/counts.json") AtomicWrite.noFaults).1
        (.ofString "/counts.json")).result = .ok repetitive.dedup := by
  have hsave : (repetitive.save awkward (.ofString "/counts.json")
      AtomicWrite.noFaults).2.result = .ok () := by
    decide +kernel
  have hdirect : AtomicWrite.IsDirect awkward (.ofString "/counts.json") ∧
      (AtomicWrite.modeFor awkward (.ofString "/counts.json")).grants .read = true := by
    decide +kernel
  obtain ⟨hiff, hfound, -⟩ := load_after_save hsave
  obtain ⟨found, hload⟩ := hiff.2 hdirect
  rw [hload, (hfound found hload).1]
  exact ⟨hsave, rfl⟩

end PhotoTally.Ledger
