import PhotoTally.Ledger.Store
import PhotoTally.Proofs.Json.RoundTrip
import PhotoTally.Proofs.Outcome

/-!
# A saved ledger can be loaded

The text of a ledger spells that ledger (`decode_encode`).  Loading succeeds where a ledger is spelt
and drops the repetitions in it (`load_eq_ok_iff`), of which a ledger that was saved has none
(`IsDuplicateFree.dedup_eq`).
-/

namespace PhotoTally

namespace TextMap

variable {α : Type}

/-- What a map holds after entries with ascending keys were put into it. -/
theorem get?_foldl_put {l : List (String × α)} (hl : l.Pairwise (·.1 < ·.1)) (m : TextMap α)
    (k : String) :
    (l.foldl (fun m e => m.put e.1 e.2) m).get? k = (valueAt k l).or (m.get? k) := by
  induction l generalizing m with
  | nil => rfl
  | cons e rest ih =>
    obtain ⟨hlt, hrest⟩ := List.pairwise_cons.1 hl
    rw [List.foldl_cons, ih hrest, put, get?_update]
    by_cases hk : k = e.1
    · subst hk
      simp [valueAt, valueAt_eq_none_of_lt hlt]
    · simp [valueAt, hk]

/-- A map is what its entries list. -/
@[simp] theorem ofList_entries (m : TextMap α) : ofList m.entries = m := by
  ext k
  rw [ofList, get?_foldl_put m.ascending, get?_empty, Option.or_none]
  rfl

end TextMap

namespace Ledger

/-! ## Text -/

theorem ofDocument_toDocument (l : Ledger) : ofDocument l.toDocument = l := by
  unfold ofDocument toDocument
  rw [List.map_map]
  have : (fun e => (e.1, TextMap.ofList e.2)) ∘
      (fun e : String × YearRecord => (e.1, e.2.entries)) = id := by
    funext e
    simp
  rw [this, List.map_id, TextMap.ofList_entries]

open Json in
theorem readsBack_document (d : Document) : ReadsBack Document.read d.write d := by
  refine readsBack_map (fun albums : List (String × List String) =>
    writeMap (albums.map fun e => (e.1, writeSequence (e.2.map quote)))) fun year _ => ?_
  refine readsBack_map (fun names : List String => writeSequence (names.map quote))
    fun album _ => ?_
  exact readsBack_sequence fun name _ => readsBack_quote name

theorem decode_encode (l : Ledger) : decode l.encode = .ok l := by
  unfold decode encode
  rw [Json.readAll_written (readsBack_document _)]
  show Except.ok (ofDocument l.toDocument) = .ok l
  rw [ofDocument_toDocument]

/-- The bytes of a text are read as that text. -/
theorem fromUTF8?_toUTF8 (s : String) : String.fromUTF8? s.toUTF8 = some s := by
  simp [String.fromUTF8?, s.isValidUTF8]
  rfl

/-! ## Repeated names -/

theorem nodup_firstOccurrences (names : List String) : (firstOccurrences names).Nodup := by
  unfold firstOccurrences
  generalize hn : names.length = n
  induction n using Nat.strong_induction_on generalizing names with
  | _ n ih =>
    cases names with
    | nil => simp
    | cons a rest =>
      have hshort : (rest.filter fun b => !b == a).length < n := by
        have := List.length_filter_le (fun b => !b == a) rest
        simp only [List.length_cons] at hn
        omega
      rw [List.eraseDups_cons]
      refine List.nodup_cons.2 ⟨?_, ih _ hshort _ rfl⟩
      rw [List.mem_eraseDups]
      simp

theorem firstOccurrences_of_nodup {names : List String} (h : names.Nodup) :
    firstOccurrences names = names := by
  unfold firstOccurrences
  induction names with
  | nil => rfl
  | cons a rest ih =>
    obtain ⟨ha, hrest⟩ := List.nodup_cons.1 h
    have hall : rest.filter (fun b => !b == a) = rest := by
      refine List.filter_eq_self.2 fun b hb => ?_
      have : b ≠ a := fun hba => ha (hba ▸ hb)
      simpa using this
    rw [List.eraseDups_cons, hall, ih hrest]

/-- Whether no album lists a name twice. -/
def IsDuplicateFree (l : Ledger) : Prop :=
  ∀ year album names, l.album? year album = some names → names.Nodup

theorem isDuplicateFree_dedup (l : Ledger) : l.dedup.IsDuplicateFree := by
  intro year album names h
  rw [album?_dedup, Option.map_eq_some_iff] at h
  obtain ⟨found, -, rfl⟩ := h
  exact nodup_firstOccurrences found

theorem IsDuplicateFree.dedup_eq {l : Ledger} (h : l.IsDuplicateFree) : l.dedup = l := by
  have hyears : l.years.mapValues (·.mapValues firstOccurrences) = l.years := by
    ext year : 1
    rw [TextMap.get?_mapValues]
    cases hy : l.years.get? year with
    | none => rfl
    | some albums =>
      have halbums : albums.mapValues firstOccurrences = albums := by
        ext album : 1
        rw [TextMap.get?_mapValues]
        cases ha : albums.get? album with
        | none => rfl
        | some names =>
          have : l.album? year album = some names := by simp [album?, hy, ha]
          rw [Option.map_some, firstOccurrences_of_nodup (h _ _ _ this)]
      rw [Option.map_some, halbums]
  unfold dedup
  rw [hyears]

/-- The known names stay free of repetitions when a scan is added. -/
theorem nodup_extend {known : List String} (h : known.Nodup) (raw : NameSet) :
    (extend known raw).Nodup := by
  have hraw : raw.toList.Nodup := by
    refine raw.ascending.imp ?_
    rintro n _ hlt rfl
    exact String.lt_irrefl n hlt
  unfold extend
  refine List.Nodup.append h (hraw.filter _) ?_
  intro n hn hnew
  rw [List.mem_filter] at hnew
  simp [hn] at hnew

theorem IsDuplicateFree.nodup_names {l : Ledger} (h : l.IsDuplicateFree) (year album : String) :
    (l.names year album).Nodup := by
  unfold names
  cases hl : l.album? year album with
  | none => exact .nil
  | some known => exact h _ _ _ hl

/-! ## Loading -/

/-- Whether the file at a path spells a ledger, the empty one if it is missing. -/
def IsSpeltAt (l : Ledger) (fs : FileSystem) (path : Path) : Prop :=
  (fs.readText path = .error (.os .notFound) ∧ l = empty) ∨
    ∃ text, fs.readText path = .ok text ∧ decode text = .ok l

theorem result_ofText (path : Path) (text : String) :
    (ofText path text).result =
      match decode text with
      | .error e => .error (.badLedger path e)
      | .ok found => .ok found.dedup := by
  unfold ofText
  cases decode text with
  | error e => rfl
  | ok found =>
    simp only
    split_ifs <;> simp [Outcome.result_bind, Except.map]

/-- Loading succeeds exactly where a ledger is spelt, and drops the repetitions in it. -/
theorem load_eq_ok_iff {fs : FileSystem} {path : Path} {l : Ledger} :
    (load fs path).result = .ok l ↔
      ∃ found : Ledger, found.IsSpeltAt fs path ∧ l = found.dedup := by
  unfold load IsSpeltAt
  cases htext : fs.readText path with
  | ok text =>
    simp only [result_ofText]
    cases hdecode : decode text with
    | error e => simp [hdecode]
    | ok found => simp [hdecode, eq_comm]
  | error e =>
    by_cases he : e = .os .notFound
    · have hempty : empty.dedup = empty := by decide
      subst he
      simp [Except.map, hempty, eq_comm]
    · simp [he]

end Ledger

end PhotoTally
