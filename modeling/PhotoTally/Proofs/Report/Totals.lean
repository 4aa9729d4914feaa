import PhotoTally.Report.Basic
import Mathlib.Algebra.BigOperators.Group.List.Basic
import Mathlib.Tactic

/-!
# Totals as sums

Totals are added field by field, and those of a report are the sum over its albums
(`totals_eq_sum`), so neither the order of the albums nor their years count.  Where every row is
consistent, what is missing to the total is what is pending in the rows, and nothing is missing if
all albums are complete (`totals_eq_iff`).
-/

namespace PhotoTally

namespace Totals

variable {t u : Totals}

@[ext] theorem ext (halbums : t.albums = u.albums) (hcomplete : t.complete = u.complete)
    (htotal : t.total = u.total) (hedited : t.edited = u.edited)
    (hdeleted : t.deleted = u.deleted) : t = u := by
  cases t
  cases u
  simp_all

instance : Zero Totals := ⟨⟨0, 0, 0, 0, 0⟩⟩

/-- Totals are added field by field. -/
instance : Add Totals := ⟨fun t u => ⟨t.albums + u.albums, t.complete + u.complete,
  t.total + u.total, t.edited + u.edited, t.deleted + u.deleted⟩⟩

instance : AddCommMonoid Totals where
  add_assoc t u v := by ext <;> exact Nat.add_assoc _ _ _
  zero_add t := by ext <;> exact Nat.zero_add _
  add_zero t := by ext <;> exact Nat.add_zero _
  add_comm t u := by ext <;> exact Nat.add_comm _ _
  nsmul := nsmulRec

/-- The totals of a single album. -/
def ofAlbum (c : AlbumCounts) : Totals where
  albums := 1
  complete := if c.isComplete then 1 else 0
  total := c.total
  edited := c.edited
  deleted := c.deleted

end Totals

/-- A report followed by another. -/
def Report.append (r₁ r₂ : Report) : Report := ⟨r₁.years ++ r₂.years⟩

namespace Report

variable {r r₁ r₂ : Report}

theorem albums_append (r₁ r₂ : Report) : (r₁.append r₂).albums = r₁.albums ++ r₂.albums :=
  List.flatMap_append

theorem totals_eq_sum (r : Report) : r.totals = (r.albums.map Totals.ofAlbum).sum := by
  unfold totals
  induction r.albums with
  | nil => rfl
  | cons c rows ih =>
    show _ = Totals.ofAlbum c + (rows.map Totals.ofAlbum).sum
    rw [← ih]
    refine Totals.ext (Nat.add_comm _ _) ?_ rfl rfl rfl
    rw [List.countP_cons, Nat.add_comm]
    rfl

theorem totals_append (r₁ r₂ : Report) : (r₁.append r₂).totals = r₁.totals + r₂.totals := by
  rw [totals_eq_sum, albums_append, List.map_append, List.sum_append, ← totals_eq_sum,
    ← totals_eq_sum]

/-- Only the albums count, not their order or their years. -/
theorem totals_of_perm (h : r₁.albums.Perm r₂.albums) : r₁.totals = r₂.totals := by
  rw [totals_eq_sum, totals_eq_sum]
  exact (h.map Totals.ofAlbum).sum_eq

theorem totals_complete_le (r : Report) : r.totals.complete ≤ r.totals.albums :=
  List.countP_le_length

/-! ## What is missing -/

/-- Whether no row has more names edited or deleted than it has names. -/
def IsConsistent (r : Report) : Prop := ∀ c ∈ r.albums, c.edited + c.deleted ≤ c.total

/-- Everything that is pending in the rows of a report. -/
def pending (r : Report) : Nat := (r.albums.map (·.pending)).sum

theorem IsConsistent.totals_eq (h : r.IsConsistent) :
    r.totals.total = r.totals.edited + r.totals.deleted + r.pending := by
  unfold IsConsistent at h
  unfold totals pending
  simp only
  generalize r.albums = rows at h
  induction rows with
  | nil => rfl
  | cons c rows ih =>
    obtain ⟨hc, hrows⟩ := List.forall_mem_cons.1 h
    have hrest := ih hrows
    have hpending : c.pending = c.total - c.edited - c.deleted := rfl
    simp only [List.map_cons, List.foldr_cons, List.sum_cons]
    omega

/-- Nothing is pending if all albums are complete. -/
theorem pending_eq_zero_iff (r : Report) :
    r.pending = 0 ↔ r.totals.complete = r.totals.albums := by
  have hrow (c : AlbumCounts) : c.pending = 0 ↔ c.isComplete = true := by
    rw [AlbumCounts.isComplete, beq_iff_eq]
  show _ ↔ r.albums.countP (·.isComplete) = r.albums.length
  rw [pending, List.sum_eq_zero_iff_forall_eq_nat, List.forall_mem_map, List.countP_eq_length]
  exact forall₂_congr fun c _ => hrow c

/-- The total is made up of what is edited and deleted if all albums are complete. -/
theorem IsConsistent.totals_eq_iff (h : r.IsConsistent) :
    r.totals.edited + r.totals.deleted = r.totals.total ↔
      r.totals.complete = r.totals.albums := by
  have := h.totals_eq
  rw [← pending_eq_zero_iff]
  omega

end Report

end PhotoTally
