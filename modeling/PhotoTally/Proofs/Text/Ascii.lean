import PhotoTally.Proofs.Text.Order
import PhotoTally.Text.LowerCase
import Mathlib

/-!
# ASCII characters in a text

An ASCII character is spelt by one byte, and that byte is part of no other character
(`mem_bytes_iff`).  Lower-casing makes such a character of itself and of its capital; of all other
characters only the Kelvin sign becomes one, a `k` (`lowerCaseChar_eq_singleton_iff`).
-/

namespace PhotoTally.Text

variable {c d : Char}

/-! ## Bytes -/

/-- Whether a character is in ASCII. -/
def IsAscii (c : Char) : Prop := c.toNat < 0x80

instance (c : Char) : Decidable (IsAscii c) := inferInstanceAs (Decidable (c.toNat < 0x80))

theorem bytes_injective : Function.Injective bytes := by
  intro s t h
  have := congrArg ofBytes? h
  rwa [ofBytes?_bytes, ofBytes?_bytes, Option.some.injEq] at this

theorem bytes_append (s t : String) : bytes (s ++ t) = bytes s ++ bytes t := by
  simp [bytes_eq]

theorem mem_utf8EncodeChar_iff (hd : IsAscii d) :
    UInt8.ofNat d.toNat ∈ String.utf8EncodeChar c ↔ c = d := by
  have hlow : d.toNat < 128 := hd
  have hc : c.val.toNat < 0x110000 := by
    have := c.valid
    simp only [UInt32.isValidChar, Nat.isValidChar] at this
    omega
  have hinj : c = d ↔ c.val.toNat = d.toNat := by
    rw [← Char.toNat_inj]
    rfl
  rw [hinj]
  unfold String.utf8EncodeChar
  generalize c.val.toNat = v at *
  generalize d.toNat = w at *
  simp only
  -- only the encoding by one byte has a byte below 128
  split_ifs <;>
    simp only [List.mem_cons, List.not_mem_nil, or_false, ← UInt8.toNat_inj,
      UInt8.toNat_ofNat'] <;>
    omega

/-- The byte of an ASCII character stands in a text where the character does. -/
theorem mem_bytes_iff {s : String} (hd : IsAscii d) :
    UInt8.ofNat d.toNat ∈ bytes s ↔ d ∈ s.toList := by
  simp [bytes_eq, mem_utf8EncodeChar_iff hd]

theorem length_bytes {s : String} (h : ∀ c ∈ s.toList, IsAscii c) :
    (bytes s).length = s.toList.length := by
  have hone : ∀ c ∈ s.toList, (String.utf8EncodeChar c).length = 1 := by
    intro c hc
    have hlow : c.toNat < 128 := h c hc
    rw [String.length_utf8EncodeChar, Char.utf8Size_eq_one_iff, UInt32.le_iff_toNat_le]
    exact Nat.le_of_lt_succ hlow
  rw [bytes_eq, List.length_flatMap, List.map_congr_left hone]
  simp

/-! ## Lower case -/

theorem toLower_eq_iff (hd : d.isUpper = false) : c.toLower = d ↔ c = d ∨ c = d.toUpper := by
  have hlow : d.toLower = d := Char.toLower_eq_of_not_isUpper (by simp [hd])
  constructor
  · intro h
    by_cases hc : c.isUpper
    · right
      rw [← h, Char.toUpper_toLower_eq_toUpper,
        Char.toUpper_eq_of_not_isLower (Char.not_isLower_of_isUpper hc)]
    · left
      rw [← h, Char.toLower_eq_of_not_isUpper hc]
  · rintro (rfl | rfl)
    · exact hlow
    · rw [Char.toLower_toUpper_eq_toLower, hlow]

/-- Of all capitals outside ASCII only the Kelvin sign has its small letter in ASCII. -/
theorem ascii_le_of_mem_capitalRuns :
    ∀ r ∈ capitalRuns, 0x80 ≤ r.first + r.shift ∨ r = ⟨0x212A, 0x212A, 1, -8383⟩ := by
  decide +kernel

theorem isAscii_toUpper (hd : IsAscii d) : IsAscii d.toUpper := by
  by_cases hsmall : d.isLower
  · rw [Char.toUpper_eq_of_isLower hsmall]
    have hlow : d.toNat < 0x80 := hd
    have hvalid : (d.toNat - 32).isValidChar := .inl (by omega)
    rw [IsAscii, Char.toNat_ofNat, if_pos hvalid]
    omega
  · rwa [Char.toUpper_eq_of_not_isLower hsmall]

/-- The small letter of a capital outside ASCII is outside ASCII, or a `k`. -/
theorem not_isAscii_of_covers {r : CapitalRun} (hr : r ∈ capitalRuns) (hc : r.covers c.toNat)
    (hd : Char.ofNat (c.toNat + r.shift).toNat = d) (hzero : d ≠ '\x00') (hk : d ≠ 'k') :
    ¬ IsAscii d := by
  intro hlow
  have hfirst : r.first ≤ c.toNat ∧ c.toNat ≤ r.last := by
    simp only [CapitalRun.covers, Bool.and_eq_true, decide_eq_true_eq] at hc
    exact hc.1
  have hvalid : (c.toNat + r.shift).toNat.isValidChar := by
    by_contra hbad
    rw [Char.ofNat, dif_neg hbad] at hd
    exact hzero hd.symm
  rcases ascii_le_of_mem_capitalRuns r hr with hrun | rfl
  · rw [← hd, IsAscii, Char.toNat_ofNat, if_pos hvalid] at hlow
    omega
  · have hkelvin : c.toNat = 0x212A := Nat.le_antisymm hfirst.2 hfirst.1
    rw [hkelvin] at hd
    exact hk hd.symm

/-- A character becomes a small ASCII character, other than `k`, if it is that character or its
capital. -/
theorem lowerCaseChar_eq_singleton_iff (hd : IsAscii d) (hzero : d ≠ '\x00') (hk : d ≠ 'k')
    (hup : d.isUpper = false) : lowerCaseChar c = [d] ↔ c = d ∨ c = d.toUpper := by
  unfold lowerCaseChar
  split_ifs with hlow hdot
  · rw [List.singleton_inj, toLower_eq_iff hup]
  all_goals
    have hnot : ¬ (c = d ∨ c = d.toUpper) := by
      rintro (rfl | rfl)
      · exact hlow hd
      · exact hlow (isAscii_toUpper hd)
  · exact iff_of_false (by simp) hnot
  · refine iff_of_false (fun h => ?_) hnot
    split at h
    · rename_i r hr
      have hcovers := List.find?_some hr
      exact not_isAscii_of_covers (List.mem_of_find?_eq_some hr) hcovers
        (List.singleton_inj.1 h) hzero hk hd
    · exact hnot (.inl (List.singleton_inj.1 h))

theorem lowerCaseChar_eq (c : Char) :
    (∃ x, lowerCaseChar c = [x]) ∨ lowerCaseChar c = ['i', '\u0307'] := by
  unfold lowerCaseChar
  split_ifs
  · exact .inl ⟨_, rfl⟩
  · exact .inr rfl
  · split <;> exact .inl ⟨_, rfl⟩

/-- A text becomes a text of small ASCII characters, without a `k`, if it is spelt by these and
their capitals. -/
theorem lowerCase_eq_iff {s small : List Char} (hsmall : ∀ d ∈ small, IsAscii d ∧ d ≠ '\x00' ∧
      d ≠ 'k' ∧ d.isUpper = false) :
    lowerCase s = small ↔ List.Forall₂ (fun c d => c = d ∨ c = d.toUpper) s small := by
  unfold lowerCase
  induction s generalizing small with
  | nil => rw [List.flatMap_nil, List.forall₂_nil_left_iff, eq_comm]
  | cons c s ih =>
    rw [List.flatMap_cons]
    cases small with
    | nil =>
      rw [List.forall₂_nil_right_iff]
      rcases lowerCaseChar_eq c with ⟨x, hx⟩ | hx <;> simp [hx]
    | cons d small =>
      obtain ⟨⟨hd, hzero, hk, hup⟩, hrest⟩ := List.forall_mem_cons.1 hsmall
      rw [List.forall₂_cons, ← ih hrest, ← lowerCaseChar_eq_singleton_iff hd hzero hk hup]
      rcases lowerCaseChar_eq c with ⟨x, hx⟩ | hx
      · rw [hx, List.singleton_append, List.cons.injEq, List.singleton_inj]
      · rw [hx]
        refine iff_of_false (fun h => ?_) (by simp)
        -- the dot above, which the second character is, is outside ASCII
        obtain ⟨-, htail⟩ := List.cons.inj h
        obtain ⟨hmark, -⟩ := List.forall_mem_cons.1 (htail ▸ hrest)
        exact absurd hmark.1 (by decide)

end PhotoTally.Text
