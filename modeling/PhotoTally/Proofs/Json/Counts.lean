import PhotoTally.Proofs.Json.RoundTrip

/-!
# Counts read back

A count below the bound of a word is read back from its decimal digits (`readsBack_count`): they are
gathered to it, and nothing that can follow a value goes on with them.
-/

namespace PhotoTally.Json

/-! ## Digits -/

theorem digitChar_facts {d : Nat} (h : d < 10) :
    d.digitChar.isDigit = true ∧ digitValue d.digitChar = d ∧ isBlank d.digitChar = false ∧
      d.digitChar ≠ '-' := by
  revert d
  decide

/-- The digits of a number are gathered to it. -/
theorem gather_toDigits {bound n : Nat} (h : n < bound) (rest : List Char) :
    gather bound 0 (Nat.toDigits 10 n ++ rest) = gather bound n rest := by
  induction n using Nat.strong_induction_on generalizing rest with
  | _ n ih =>
    by_cases hn : n < 10
    · obtain ⟨hdigit, hvalue, -, -⟩ := digitChar_facts hn
      rw [Nat.toDigits_of_lt_base hn, List.singleton_append, gather, hvalue,
        if_pos ⟨hdigit, by omega⟩]
      congr 1
      omega
    · obtain ⟨hdigit, hvalue, -, -⟩ := digitChar_facts (Nat.mod_lt n (by decide : 0 < 10))
      rw [Nat.toDigits_of_base_le (by decide) (Nat.le_of_not_lt hn), List.append_assoc,
        List.singleton_append, ih (n / 10) (by omega) (by omega), gather, hvalue,
        if_pos ⟨hdigit, by omega⟩]
      congr 1
      omega

/-- The digits of a number begin with a digit, which is no zero unless it is all. -/
theorem toDigits_cases (n : Nat) :
    ∃ d ds, Nat.toDigits 10 n = d.digitChar :: ds ∧ d < 10 ∧ (d = 0 → n = 0 ∧ ds = []) := by
  induction n using Nat.strong_induction_on with
  | _ n ih =>
    by_cases hn : n < 10
    · exact ⟨n, [], Nat.toDigits_of_lt_base hn, hn, fun h => ⟨h, rfl⟩⟩
    · obtain ⟨d, ds, hdigits, hd, hzero⟩ := ih (n / 10) (by omega)
      refine ⟨d, ds ++ [(n % 10).digitChar], ?_, hd, fun h => ?_⟩
      · rw [Nat.toDigits_of_base_le (by decide) (Nat.le_of_not_lt hn), hdigits]
        rfl
      · have := (hzero h).1
        omega

/-! ## Counts -/

theorem startsWithDigit_of_delimited {rest : List Char} (h : Delimited rest) :
    startsWithDigit rest = false := by
  cases rest with
  | nil => rfl
  | cons c rest =>
    have hc := h c rfl
    show c.isDigit = false
    rcases hc with rfl | rfl | rfl
    · decide
    · decide
    · decide

theorem gather_of_delimited {rest : List Char} (h : Delimited rest) (bound n : Nat) :
    gather bound n rest = (n, rest) := by
  have hdigit := startsWithDigit_of_delimited h
  cases rest with
  | nil => rfl
  | cons c rest =>
    have hdigit : c.isDigit = false := hdigit
    rw [gather, hdigit]
    simp

theorem readIntegerEnd_of_delimited {rest : List Char} (h : Delimited rest) (n : Nat) :
    readIntegerEnd false n rest = .ok (.natural n, rest) := by
  unfold readIntegerEnd
  cases rest with
  | nil => rfl
  | cons c rest =>
    rcases h c rfl with rfl | rfl | rfl
    · rfl
    · rfl
    · rfl

theorem readNumber_writeCount {n : Nat} (h : n < wordBound) {rest : List Char}
    (hrest : Delimited rest) : readNumber (writeCount n ++ rest) = .ok (.natural n, rest) := by
  obtain ⟨d, ds, hdigits, hd, hzero⟩ := toDigits_cases n
  obtain ⟨hdigit, hvalue, -, hminus⟩ := digitChar_facts hd
  have hgather := gather_toDigits h rest
  rw [hdigits, gather_of_delimited hrest] at hgather
  have hunsigned : readNumber (writeCount n ++ rest) = readDigits false (writeCount n ++ rest) := by
    unfold writeCount readNumber
    rw [hdigits, List.cons_append]
    split
    · rename_i heq
      exact absurd (List.cons.inj heq).1 hminus
    · rfl
  rw [hunsigned, writeCount, hdigits, List.cons_append, readDigits]
  by_cases hd0 : d = 0
  · obtain ⟨rfl, rfl⟩ := hzero hd0
    subst hd0
    rw [if_pos (by rfl), List.nil_append, startsWithDigit_of_delimited hrest]
    exact readIntegerEnd_of_delimited hrest 0
  · have hne : d.digitChar ≠ '0' := by
      intro h0
      rw [h0] at hvalue
      exact hd0 hvalue.symm
    rw [if_neg hne, if_pos hdigit]
    rw [List.cons_append, gather, hvalue] at hgather
    have hbound : d < wordBound := by
      have : 10 < wordBound := by decide
      omega
    rw [if_pos ⟨hdigit, by omega⟩, Nat.zero_mul, Nat.zero_add] at hgather
    rw [hvalue, hgather]
    simp only [startsWithDigit_of_delimited hrest, Bool.false_eq_true, if_false]
    exact readIntegerEnd_of_delimited hrest n

theorem readsBack_count {n : Nat} (h : n < wordBound) : ReadsBack readCount (writeCount n) n where
  begins := by
    obtain ⟨d, ds, hdigits, hd, -⟩ := toDigits_cases n
    obtain ⟨hdigit, -, hblank, -⟩ := digitChar_facts hd
    refine ⟨d.digitChar, ds, hdigits, hblank, ?_⟩
    intro hclose
    rw [hclose] at hdigit
    exact absurd hdigit (by decide)
  reads rest hrest := by
    obtain ⟨d, ds, hdigits, hd, -⟩ := toDigits_cases n
    obtain ⟨hdigit, -, hblank, -⟩ := digitChar_facts hd
    have hnumber := readNumber_writeCount h hrest
    unfold readCount
    rw [writeCount, hdigits, List.cons_append] at hnumber ⊢
    rw [skipBlank_cons hblank]
    simp only [hdigit, or_true, if_true, hnumber]

end PhotoTally.Json
