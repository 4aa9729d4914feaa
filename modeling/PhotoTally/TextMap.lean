/-!
# Finite maps with text keys

The entries stand in strictly ascending order of keys, by code points.  Two maps with the same
look-ups are therefore equal (`TextMap.ext_get?`).  `TextMap.update` is the one way to change an
entry, and `get?_update` says all that it does.
-/

namespace PhotoTally

/-- A finite map from texts, in ascending order of keys. -/
structure TextMap (α : Type) where
  entries : List (String × α)
  ascending : entries.Pairwise (·.1 < ·.1)
  deriving DecidableEq

namespace TextMap

variable {α β : Type}

/-! ## Order of texts -/

theorem lt_trichotomy (a b : String) : a < b ∨ a = b ∨ b < a := by
  by_cases h₁ : a < b
  · exact .inl h₁
  · by_cases h₂ : b < a
    · exact .inr (.inr h₂)
    · exact .inr (.inl (String.le_antisymm h₂ h₁))

/-! ## Look-up -/

def empty : TextMap α := ⟨[], .nil⟩

instance : Inhabited (TextMap α) := ⟨empty⟩

/-- The value of the first entry with the key. -/
def valueAt (k : String) : List (String × α) → Option α
  | [] => none
  | (k', v) :: rest => if k = k' then some v else valueAt k rest

/-- The value at a key. -/
def get? (m : TextMap α) (k : String) : Option α := valueAt k m.entries

/-- The keys, ascending. -/
def keys (m : TextMap α) : List String := m.entries.map (·.1)

/-- The values, in order of their keys. -/
def values (m : TextMap α) : List α := m.entries.map (·.2)

@[simp] theorem get?_empty (k : String) : (empty : TextMap α).get? k = none := rfl

theorem valueAt_eq_none_of_lt {l : List (String × α)} {k : String} (h : ∀ e ∈ l, k < e.1) :
    valueAt k l = none := by
  induction l with
  | nil => rfl
  | cons e rest ih =>
    have hk : k ≠ e.1 := by
      rintro rfl
      exact String.lt_irrefl _ (h e (by simp))
    simp [valueAt, hk, ih fun e he => h e (by simp [he])]

theorem valueAt_eq_some_iff {l : List (String × α)} (hl : l.Pairwise (·.1 < ·.1)) {k : String}
    {v : α} : valueAt k l = some v ↔ (k, v) ∈ l := by
  induction l with
  | nil => simp [valueAt]
  | cons e rest ih =>
    obtain ⟨k', v'⟩ := e
    obtain ⟨hlt, hrest⟩ := List.pairwise_cons.1 hl
    by_cases hk : k = k'
    · subst hk
      have hnot : (k, v) ∉ rest := fun hm => String.lt_irrefl k (hlt (k, v) hm)
      simp [valueAt, hnot, eq_comm]
    · simp [valueAt, hk, ih hrest]

theorem get?_eq_some_iff {m : TextMap α} {k : String} {v : α} :
    m.get? k = some v ↔ (k, v) ∈ m.entries := valueAt_eq_some_iff m.ascending

theorem mem_keys_iff {m : TextMap α} {k : String} : k ∈ m.keys ↔ (m.get? k).isSome := by
  rw [Option.isSome_iff_exists]
  simp [keys, get?_eq_some_iff]

/-- The keys are strictly ascending. -/
theorem keys_ascending (m : TextMap α) : m.keys.Pairwise (· < ·) :=
  List.pairwise_map.2 m.ascending

/-! ## Equality -/

theorem eq_of_valueAt_eq {l₁ l₂ : List (String × α)} (h₁ : l₁.Pairwise (·.1 < ·.1))
    (h₂ : l₂.Pairwise (·.1 < ·.1)) (h : ∀ k, valueAt k l₁ = valueAt k l₂) : l₁ = l₂ := by
  induction l₁ generalizing l₂ with
  | nil =>
    cases l₂ with
    | nil => rfl
    | cons e rest => simpa [valueAt] using h e.1
  | cons e₁ rest₁ ih =>
    obtain ⟨k₁, v₁⟩ := e₁
    obtain ⟨hlt₁, hr₁⟩ := List.pairwise_cons.1 h₁
    cases l₂ with
    | nil => simpa [valueAt] using h k₁
    | cons e₂ rest₂ =>
      obtain ⟨k₂, v₂⟩ := e₂
      obtain ⟨hlt₂, hr₂⟩ := List.pairwise_cons.1 h₂
      have hk : k₁ = k₂ := by
        rcases lt_trichotomy k₁ k₂ with hk | hk | hk
        · have := h k₁
          rw [valueAt_eq_none_of_lt (l := (k₂, v₂) :: rest₂) (by
            intro e he
            rcases List.mem_cons.1 he with rfl | he
            · exact hk
            · exact String.lt_trans hk (hlt₂ e he))] at this
          simp [valueAt] at this
        · exact hk
        · have := h k₂
          rw [valueAt_eq_none_of_lt (l := (k₁, v₁) :: rest₁) (by
            intro e he
            rcases List.mem_cons.1 he with rfl | he
            · exact hk
            · exact String.lt_trans hk (hlt₁ e he))] at this
          simp [valueAt] at this
      subst hk
      have hv : v₁ = v₂ := by simpa [valueAt] using h k₁
      subst hv
      rw [ih hr₁ hr₂]
      intro k
      by_cases hk : k = k₁
      · subst hk
        rw [valueAt_eq_none_of_lt hlt₁, valueAt_eq_none_of_lt hlt₂]
      · simpa [valueAt, hk] using h k

/-- Maps with the same look-ups are equal. -/
@[ext] theorem ext_get? {m₁ m₂ : TextMap α} (h : ∀ k, m₁.get? k = m₂.get? k) : m₁ = m₂ := by
  have := eq_of_valueAt_eq m₁.ascending m₂.ascending h
  cases m₁; cases m₂; simp_all

/-! ## Change of one entry -/

/-- The entries with the value at `k` replaced by `f` of the one before, if any. -/
def updateEntries (k : String) (f : Option α → α) : List (String × α) → List (String × α)
  | [] => [(k, f none)]
  | (k', v) :: rest =>
    if k < k' then (k, f none) :: (k', v) :: rest
    else if k = k' then (k, f (some v)) :: rest
    else (k', v) :: updateEntries k f rest

theorem fst_mem_updateEntries {k : String} {f : Option α → α} {l : List (String × α)}
    {e : String × α} (h : e ∈ updateEntries k f l) : e.1 = k ∨ ∃ e' ∈ l, e'.1 = e.1 := by
  induction l with
  | nil => simp_all [updateEntries]
  | cons e' rest ih =>
    obtain ⟨k', v⟩ := e'
    unfold updateEntries at h
    split at h
    · grind
    · split at h <;> grind

theorem ascending_updateEntries {k : String} {f : Option α → α} {l : List (String × α)}
    (h : l.Pairwise (·.1 < ·.1)) : (updateEntries k f l).Pairwise (·.1 < ·.1) := by
  induction l with
  | nil => simp [updateEntries]
  | cons e rest ih =>
    obtain ⟨k', v⟩ := e
    obtain ⟨hlt, hrest⟩ := List.pairwise_cons.1 h
    unfold updateEntries
    split
    · rename_i hk
      refine List.pairwise_cons.2 ⟨?_, h⟩
      intro e he
      rcases List.mem_cons.1 he with rfl | he
      · exact hk
      · exact String.lt_trans hk (hlt e he)
    · split
      · rename_i hk
        subst hk
        exact List.pairwise_cons.2 ⟨hlt, hrest⟩
      · rename_i hk hne
        refine List.pairwise_cons.2 ⟨?_, ih hrest⟩
        intro e he
        rcases fst_mem_updateEntries he with hfst | ⟨e', he', hfst⟩
        · rcases lt_trichotomy k k' with h' | h' | h'
          · exact absurd h' hk
          · exact absurd h' hne
          · exact hfst ▸ h'
        · exact hfst ▸ hlt e' he'

theorem valueAt_updateEntries {k j : String} {f : Option α → α} {l : List (String × α)}
    (h : l.Pairwise (·.1 < ·.1)) :
    valueAt j (updateEntries k f l) = if j = k then some (f (valueAt k l)) else valueAt j l := by
  induction l with
  | nil => by_cases hj : j = k <;> simp [updateEntries, valueAt, hj]
  | cons e rest ih =>
    obtain ⟨k', v⟩ := e
    obtain ⟨hlt, hrest⟩ := List.pairwise_cons.1 h
    unfold updateEntries
    split
    · rename_i hk
      have hnone : valueAt k ((k', v) :: rest) = none := valueAt_eq_none_of_lt (by
        intro e he
        rcases List.mem_cons.1 he with rfl | he
        · exact hk
        · exact String.lt_trans hk (hlt e he))
      rw [hnone]
      by_cases hj : j = k <;> simp [valueAt, hj]
    · split
      · rename_i hk
        subst hk
        by_cases hj : j = k <;> simp [valueAt, hj]
      · rename_i hne
        by_cases hj : j = k'
        · subst hj
          simp [valueAt, Ne.symm hne]
        · simp [valueAt, hj, ih hrest, hne]

/-- The map with the value at `k` replaced by `f` of the one before, if any. -/
def update (m : TextMap α) (k : String) (f : Option α → α) : TextMap α :=
  ⟨updateEntries k f m.entries, ascending_updateEntries m.ascending⟩

theorem get?_update (m : TextMap α) (k j : String) (f : Option α → α) :
    (m.update k f).get? j = if j = k then some (f (m.get? k)) else m.get? j :=
  valueAt_updateEntries m.ascending

@[simp] theorem get?_update_self (m : TextMap α) (k : String) (f : Option α → α) :
    (m.update k f).get? k = some (f (m.get? k)) := by simp [get?_update]

theorem get?_update_of_ne (m : TextMap α) {k j : String} (h : j ≠ k) (f : Option α → α) :
    (m.update k f).get? j = m.get? j := by simp [get?_update, h]

/-- The map with `v` at `k`. -/
def put (m : TextMap α) (k : String) (v : α) : TextMap α := m.update k fun _ => v

/-- The map of the pairs; of two values for a key the later one counts. -/
def ofList (l : List (String × α)) : TextMap α := l.foldl (fun m e => m.put e.1 e.2) empty

/-- The map with `f` applied to every value. -/
def mapValues (f : α → β) (m : TextMap α) : TextMap β :=
  ⟨m.entries.map fun e => (e.1, f e.2), List.pairwise_map.2 m.ascending⟩

@[simp] theorem get?_mapValues (f : α → β) (m : TextMap α) (k : String) :
    (m.mapValues f).get? k = (m.get? k).map f := by
  unfold mapValues get?
  simp only
  induction m.entries with
  | nil => rfl
  | cons e rest ih => by_cases hk : k = e.1 <;> simp [valueAt, hk, ih]

end TextMap

end PhotoTally
