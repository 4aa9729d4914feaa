import PhotoTally.TextMap

/-!
# Sets of names

A set of names is kept as its strictly ascending list, so that equal sets are equal values and a
set has one order to be gone through in.
-/

namespace PhotoTally

/-- A finite set of texts. -/
structure NameSet where
  toList : List String
  ascending : toList.Pairwise (· < ·)
  deriving DecidableEq

namespace NameSet

def empty : NameSet := ⟨[], .nil⟩

instance : Inhabited NameSet := ⟨empty⟩

instance : Membership String NameSet := ⟨fun s n => n ∈ s.toList⟩

theorem mem_iff {s : NameSet} {n : String} : n ∈ s ↔ n ∈ s.toList := Iff.rfl

instance (n : String) (s : NameSet) : Decidable (n ∈ s) :=
  inferInstanceAs (Decidable (n ∈ s.toList))

@[simp] theorem not_mem_empty (n : String) : n ∉ empty := by simp [mem_iff, empty]

/-- Puts a name at its place in an ascending list. -/
def insertInto (n : String) : List String → List String
  | [] => [n]
  | m :: rest =>
    if n < m then n :: m :: rest
    else if n = m then m :: rest
    else m :: insertInto n rest

theorem mem_insertInto {n x : String} {l : List String} :
    x ∈ insertInto n l ↔ x = n ∨ x ∈ l := by
  induction l with
  | nil => simp [insertInto]
  | cons m rest ih =>
    unfold insertInto
    split
    · simp
    · split
      · rename_i h; simp [h]
      · grind

theorem ascending_insertInto {n : String} {l : List String} (h : l.Pairwise (· < ·)) :
    (insertInto n l).Pairwise (· < ·) := by
  induction l with
  | nil => simp [insertInto]
  | cons m rest ih =>
    obtain ⟨hlt, hrest⟩ := List.pairwise_cons.1 h
    unfold insertInto
    split
    · rename_i hn
      refine List.pairwise_cons.2 ⟨?_, h⟩
      intro x hx
      rcases List.mem_cons.1 hx with rfl | hx
      · exact hn
      · exact String.lt_trans hn (hlt x hx)
    · split
      · exact h
      · rename_i hn hne
        refine List.pairwise_cons.2 ⟨?_, ih hrest⟩
        intro x hx
        rcases mem_insertInto.1 hx with rfl | hx
        · rcases TextMap.lt_trichotomy x m with h' | h' | h'
          · exact absurd h' hn
          · exact absurd h' hne
          · exact h'
        · exact hlt x hx

def insert (n : String) (s : NameSet) : NameSet :=
  ⟨insertInto n s.toList, ascending_insertInto s.ascending⟩

@[simp] theorem mem_insert {n x : String} {s : NameSet} : x ∈ s.insert n ↔ x = n ∨ x ∈ s :=
  mem_insertInto

/-- The set of the listed names. -/
def ofList (l : List String) : NameSet := l.foldr insert empty

@[simp] theorem mem_ofList {x : String} {l : List String} : x ∈ ofList l ↔ x ∈ l := by
  induction l with
  | nil => simp [ofList]
  | cons n rest ih =>
    have : ofList (n :: rest) = (ofList rest).insert n := rfl
    simp [this, ih]

theorem eq_of_ascending {l₁ l₂ : List String} (h₁ : l₁.Pairwise (· < ·))
    (h₂ : l₂.Pairwise (· < ·)) (h : ∀ x, x ∈ l₁ ↔ x ∈ l₂) : l₁ = l₂ := by
  induction l₁ generalizing l₂ with
  | nil =>
    cases l₂ with
    | nil => rfl
    | cons b _ => simpa using h b
  | cons a rest₁ ih =>
    obtain ⟨hlt₁, hr₁⟩ := List.pairwise_cons.1 h₁
    cases l₂ with
    | nil => simpa using h a
    | cons b rest₂ =>
      obtain ⟨hlt₂, hr₂⟩ := List.pairwise_cons.1 h₂
      have hab : a = b := by
        rcases List.mem_cons.1 ((h a).1 (by simp)) with hab | ha
        · exact hab
        · rcases List.mem_cons.1 ((h b).2 (by simp)) with hba | hb
          · exact hba.symm
          · exact absurd (String.lt_trans (hlt₁ b hb) (hlt₂ a ha)) (String.lt_irrefl _)
      subst hab
      rw [ih hr₁ hr₂]
      intro x
      have hx := h x
      have ha₁ : a ∉ rest₁ := fun hm => String.lt_irrefl _ (hlt₁ a hm)
      have ha₂ : a ∉ rest₂ := fun hm => String.lt_irrefl _ (hlt₂ a hm)
      by_cases hxa : x = a
      · simp [hxa, ha₁, ha₂]
      · simpa [hxa] using hx

/-- Sets with the same members are equal. -/
@[ext] theorem ext_mem {s₁ s₂ : NameSet} (h : ∀ x, x ∈ s₁ ↔ x ∈ s₂) : s₁ = s₂ := by
  have := eq_of_ascending s₁.ascending s₂.ascending h
  cases s₁; cases s₂; simp_all

end NameSet

end PhotoTally
