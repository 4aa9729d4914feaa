import PhotoTally.Proofs.Report.RoundTrip
import Mathlib.Data.Fintype.Fin

/-!
# Counting the names of an album

The counts divide the places of an album's list of names into three: edited, deleted and pending
(`IsDivision`).  So they are sums over the parts of the list, in any order, and they come out of one
pass over it (`count_eq_foldl`).  Counts that were read from a file need not fit together; they are
complete if nothing is left of the total, and a computation in machine words finds the same
(`toNat_pendingWord`).
-/

namespace PhotoTally.AlbumCounts

variable {album : String} {names : List String} {raw pictures : NameSet}

/-! ## Places in a list -/

/-- The places of a list at which a name has some property. -/
def places (names : List String) (p : String → Prop) [DecidablePred p] :
    Finset (Fin names.length) :=
  Finset.univ.filter fun i => p names[i]

theorem card_places (names : List String) (p : String → Prop) [DecidablePred p] :
    (places names p).card = names.countP fun n => p n := by
  unfold places
  induction names with
  | nil => rfl
  | cons n names ih =>
    rw [List.countP_cons, ← ih]
    show (Finset.univ.filter fun i : Fin (names.length + 1) => p (n :: names)[i]).card = _
    rw [Fin.card_filter_univ_succ]
    by_cases hn : p n <;> simp [hn]

/-- Whether counts divide the places of a list of names into three. -/
structure IsDivision (names : List String) (raw pictures : NameSet) (c : AlbumCounts) : Prop where
  total : c.total = names.length
  deleted : c.deleted = (places names fun n => n ∉ raw).card
  edited : c.edited = (places names fun n => n ∈ raw ∧ n ∈ pictures).card
  pending : c.pending = (places names fun n => n ∈ raw ∧ n ∉ pictures).card
  sum : c.edited + c.deleted + c.pending = c.total
  complete_iff : c.isComplete = true ↔ c.edited = c.total - c.deleted
  complete_iff_forall : c.isComplete = true ↔ ∀ n ∈ names, n ∈ raw → n ∈ pictures

/-- A name is edited, or gone, or pending. -/
theorem countP_thirds (names : List String) (raw pictures : NameSet) :
    names.countP (fun n => n ∈ raw ∧ n ∈ pictures) + names.countP (fun n => n ∉ raw) +
      names.countP (fun n => n ∈ raw ∧ n ∉ pictures) = names.length := by
  induction names with
  | nil => rfl
  | cons n names ih =>
    have hone : (if decide (n ∈ raw ∧ n ∈ pictures) = true then 1 else 0) +
        (if decide (n ∉ raw) = true then 1 else 0) +
        (if decide (n ∈ raw ∧ n ∉ pictures) = true then 1 else 0) = 1 := by
      by_cases hraw : n ∈ raw <;> by_cases hpicture : n ∈ pictures <;> simp [hraw, hpicture]
    rw [List.countP_cons, List.countP_cons, List.countP_cons, List.length_cons]
    omega

theorem pending_count :
    (count album names raw pictures).pending = names.countP fun n => n ∈ raw ∧ n ∉ pictures := by
  have hthirds := countP_thirds names raw pictures
  show names.length - names.countP (fun n => n ∈ raw ∧ n ∈ pictures) -
    names.countP (fun n => n ∉ raw) = _
  omega

theorem edited_add_deleted_add_pending (album : String) (names : List String)
    (raw pictures : NameSet) :
    (count album names raw pictures).edited + (count album names raw pictures).deleted +
      (count album names raw pictures).pending = (count album names raw pictures).total := by
  rw [pending_count]
  exact countP_thirds names raw pictures

theorem isDivision_count : IsDivision names raw pictures (count album names raw pictures) where
  total := rfl
  deleted := (card_places _ _).symm
  edited := (card_places _ _).symm
  pending := by rw [card_places, pending_count]
  sum := edited_add_deleted_add_pending _ _ _ _
  complete_iff := by
    have hsum := edited_add_deleted_add_pending album names raw pictures
    rw [isComplete_iff]
    omega
  complete_iff_forall := by
    rw [isComplete, beq_iff_eq, pending_count, List.countP_eq_zero]
    simp

/-! ## Parts of a list -/

/-- Whether counts are the sums of two others. -/
structure IsSum (c₁ c₂ c : AlbumCounts) : Prop where
  total : c.total = c₁.total + c₂.total
  edited : c.edited = c₁.edited + c₂.edited
  deleted : c.deleted = c₁.deleted + c₂.deleted
  pending : c.pending = c₁.pending + c₂.pending

theorem isSum_count (names more : List String) (raw pictures : NameSet) :
    IsSum (count album names raw pictures) (count album more raw pictures)
      (count album (names ++ more) raw pictures) where
  total := List.length_append
  edited := List.countP_append
  deleted := List.countP_append
  pending := by rw [pending_count, pending_count, pending_count, List.countP_append]

/-- The order of the names does not count. -/
theorem count_perm {more : List String} (h : names.Perm more) :
    count album names raw pictures = count album more raw pictures := by
  unfold count
  rw [h.length_eq, h.countP_eq, h.countP_eq]

/-! ## One pass -/

/-- The counts after one more name has been looked at. -/
def countStep (raw pictures : NameSet) (c : AlbumCounts) (n : String) : AlbumCounts :=
  if n ∉ raw then { c with deleted := c.deleted + 1 }
  else if n ∈ pictures then { c with edited := c.edited + 1 }
  else c

/-- A pass adds what it finds to the counts that it starts from. -/
theorem foldl_countStep (names : List String) (c : AlbumCounts) :
    names.foldl (countStep raw pictures) c = { c with
      edited := c.edited + names.countP fun n => n ∈ raw ∧ n ∈ pictures
      deleted := c.deleted + names.countP fun n => n ∉ raw } := by
  induction names generalizing c with
  | nil => rfl
  | cons n names ih =>
    rw [List.foldl_cons, ih, List.countP_cons, List.countP_cons, countStep]
    by_cases hraw : n ∈ raw
    · by_cases hpicture : n ∈ pictures
      · simp [hraw, hpicture]
        omega
      · simp [hraw, hpicture]
    · simp [hraw]
      omega

theorem count_eq_foldl : count album names raw pictures =
    names.foldl (countStep raw pictures) ⟨album, names.length, 0, 0⟩ := by
  simp [foldl_countStep, count]

/-! ## Machine words -/

/-- Subtraction of machine words that stops at zero. -/
def subtractWord (a b : UInt64) : UInt64 := if a ≤ b then 0 else a - b

theorem toNat_subtractWord (a b : UInt64) : (subtractWord a b).toNat = a.toNat - b.toNat := by
  unfold subtractWord
  split_ifs with h
  · have hle : a.toNat ≤ b.toNat := UInt64.le_iff_toNat_le.1 h
    rw [Nat.sub_eq_zero_of_le hle]
    rfl
  · exact UInt64.toNat_sub_of_le _ _ (UInt64.le_of_lt (UInt64.not_le.1 h))

/-- What is pending, computed in machine words. -/
def pendingWord (c : AlbumCounts) : UInt64 :=
  subtractWord (subtractWord (.ofNat c.total) (.ofNat c.edited)) (.ofNat c.deleted)

/-- As long as the counts are machine words nothing wraps around. -/
theorem toNat_pendingWord {c : AlbumCounts} (h : c.Fits) : c.pendingWord.toNat = c.pending := by
  have hword {n : Nat} (hn : n < Json.wordBound) : (UInt64.ofNat n).toNat = n :=
    UInt64.toNat_ofNat_of_lt' hn
  rw [pendingWord, toNat_subtractWord, toNat_subtractWord, hword h.total, hword h.edited,
    hword h.deleted]
  rfl

/-- The counts of a list are machine words if its length is one. -/
theorem fits_count (h : names.length < Json.wordBound) :
    (count album names raw pictures).Fits :=
  ⟨h, List.countP_le_length.trans_lt h, List.countP_le_length.trans_lt h⟩

/-! ## Main result -/

/-- The counts divide the list of names into three, by one pass over it, whatever the two sets are
and each repeated name as often as it stands there.  Those of a list are the sums of those of its
parts, in any order.  Whether any counts are complete, also such that do not fit together, is a
matter of their sum as natural numbers, and machine words do not wrap around on the way. -/
theorem count_divides :
    (∀ album names raw pictures,
      count album names raw pictures =
        names.foldl (countStep raw pictures) ⟨album, names.length, 0, 0⟩ ∧
      IsDivision names raw pictures (count album names raw pictures)) ∧
    (∀ album names more raw pictures, IsSum (count album names raw pictures)
      (count album more raw pictures) (count album (names ++ more) raw pictures)) ∧
    (∀ album names more raw pictures, names.Perm more →
      count album names raw pictures = count album more raw pictures) ∧
    (∀ c : AlbumCounts, c.isComplete = true ↔ c.total ≤ c.edited + c.deleted) ∧
    ∀ c : AlbumCounts, c.Fits → c.pendingWord.toNat = c.pending ∧
      (c.pendingWord = 0 ↔ c.total ≤ c.edited + c.deleted) := by
  refine ⟨fun album names raw pictures => ⟨count_eq_foldl, isDivision_count⟩,
    fun album names more raw pictures => isSum_count names more raw pictures,
    fun album names more raw pictures h => count_perm h, isComplete_iff, fun c hfits => ?_⟩
  have hword := toNat_pendingWord hfits
  refine ⟨hword, ?_⟩
  rw [← isComplete_iff, isComplete, beq_iff_eq, ← hword, ← UInt64.toNat_inj]
  rfl

/-- Counts whose sum is small only if it wraps around. -/
def overfull : AlbumCounts := ⟨"Trip", 5, Json.wordBound - 1, 2⟩

theorem count_divides_repeated :
    ["A", "C", "B", "A"].Perm ["A", "A", "B", "C"] ∧
      count "Trip" ["A", "A", "B", "C"] (.ofList ["A", "B"]) (.ofList ["A", "D"]) =
        count "Trip" ["A", "C", "B", "A"] (.ofList ["A", "B"]) (.ofList ["A", "D"]) ∧
      IsDivision ["A", "A", "B", "C"] (.ofList ["A", "B"]) (.ofList ["A", "D"])
        ⟨"Trip", 4, 2, 1⟩ ∧
      overfull.Fits ∧ overfull.pendingWord = 0 ∧ overfull.isComplete = true := by
  obtain ⟨hcount, -, hperm, hcomplete, hwords⟩ := count_divides
  have hfits : overfull.Fits := ⟨by decide, by decide, by decide⟩
  have hpermuted : ["A", "C", "B", "A"].Perm ["A", "A", "B", "C"] := by decide
  have hvalue : count "Trip" ["A", "A", "B", "C"] (.ofList ["A", "B"]) (.ofList ["A", "D"]) =
      ⟨"Trip", 4, 2, 1⟩ := by decide
  have hfull : overfull.total ≤ overfull.edited + overfull.deleted := by decide
  refine ⟨hpermuted, (hperm _ _ _ _ _ hpermuted).symm, ?_, hfits, (hwords _ hfits).2.2 hfull,
    (hcomplete _).2 hfull⟩
  rw [← hvalue]
  exact (hcount _ _ _ _).2

end PhotoTally.AlbumCounts
