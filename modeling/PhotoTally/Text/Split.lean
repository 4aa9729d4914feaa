/-!
# Splitting a list at a separator

`splitLast` cuts at the last separator; `splitAll` cuts at every one.
-/

namespace PhotoTally.Text

variable {α : Type} [DecidableEq α]

/-- What stands before and after the last `sep`. -/
def splitLast (sep : α) : List α → Option (List α × List α)
  | [] => none
  | a :: rest =>
    match splitLast sep rest with
    | some (before, after) => some (a :: before, after)
    | none => if a = sep then some ([], rest) else none

/-- The stretches between the separators; there is always one more than there are separators. -/
def splitAll (sep : α) : List α → List (List α)
  | [] => [[]]
  | a :: rest =>
    if a = sep then [] :: splitAll sep rest
    else match splitAll sep rest with
      | [] => [[a]]
      | s :: more => (a :: s) :: more

/-- The stretches, put together again with the separator between them. -/
def joinAll (sep : α) : List (List α) → List α
  | [] => []
  | [s] => s
  | s :: more => s ++ sep :: joinAll sep more

theorem splitAll_ne_nil (sep : α) (l : List α) : splitAll sep l ≠ [] := by
  cases l with
  | nil => simp [splitAll]
  | cons a rest =>
    unfold splitAll
    split
    · simp
    · split <;> simp

@[simp] theorem joinAll_splitAll (sep : α) (l : List α) : joinAll sep (splitAll sep l) = l := by
  induction l with
  | nil => rfl
  | cons a rest ih =>
    have hne := splitAll_ne_nil sep rest
    unfold splitAll
    split
    · rename_i h
      cases hs : splitAll sep rest with
      | nil => exact absurd hs hne
      | cons s more => rw [hs] at ih; simp [joinAll, ih, h]
    · cases hs : splitAll sep rest with
      | nil => exact absurd hs hne
      | cons s more =>
        rw [hs] at ih
        cases more with
        | nil => simpa [joinAll] using ih
        | cons t more => simpa [joinAll] using ih

theorem splitLast_eq_none_iff {sep : α} {l : List α} : splitLast sep l = none ↔ sep ∉ l := by
  induction l with
  | nil => simp [splitLast]
  | cons a rest ih =>
    unfold splitLast
    cases h : splitLast sep rest with
    | some p => simp_all
    | none =>
      rw [h] at ih
      by_cases ha : a = sep
      · simp [ha]
      · simp_all [eq_comm]

/-- The cut is at the last separator: none stands after it. -/
theorem splitLast_eq_some_iff {sep : α} {l before after : List α} :
    splitLast sep l = some (before, after) ↔ l = before ++ sep :: after ∧ sep ∉ after := by
  induction l generalizing before with
  | nil => simp [splitLast]
  | cons a rest ih =>
    unfold splitLast
    cases h : splitLast sep rest with
    | some p =>
      obtain ⟨b, c⟩ := p
      constructor
      · intro e
        simp only [Option.some.injEq, Prod.mk.injEq] at e
        obtain ⟨rfl, rfl⟩ := e
        have := @splitLast_eq_none_iff _ _ sep rest
        grind
      · rintro ⟨e, hn⟩
        cases before with
        | nil => grind [@splitLast_eq_none_iff _ _ sep rest]
        | cons x before => grind
    | none =>
      have hm := splitLast_eq_none_iff.1 h
      by_cases ha : a = sep
      · constructor
        · intro e
          simp [ha] at e
          grind
        · rintro ⟨e, hn⟩
          cases before with
          | nil => grind
          | cons x before => grind
      · constructor
        · intro e
          simp [ha] at e
        · rintro ⟨e, hn⟩
          cases before with
          | nil => grind
          | cons x before => grind

end PhotoTally.Text
