import PhotoTally.Proofs.Json.RoundTrip
import PhotoTally.Proofs.Outcome

/-!
# The grammar of JSON texts

`spelt s x t` says that the text `s` begins with a spelling of `x` and goes on with `t`.  The
spellings of strings, sequences and maps are given here without a reader; `Matches` says that a
reader accepts exactly what is spelt so, which holds of strings (`matches_string`).
-/

namespace PhotoTally.Json

/-! ## The grammar -/

/-- The second text is the first without some blanks at its start. -/
inductive Blanks : List Char → List Char → Prop where
  | none {s : List Char} : Blanks s s
  | cons {c : Char} {s t : List Char} : isBlank c = true → Blanks s t → Blanks (c :: s) t

/-- What stands for a character inside quotes: itself, an escape of one letter, its number in four
digits, or the numbers of two halves. -/
inductive SpeltChar : List Char → Char → List Char → Prop where
  | plain {c : Char} {s : List Char} : c ≠ '"' → c ≠ '\\' → 0x20 ≤ c.toNat → SpeltChar (c :: s) c s
  | short {e c : Char} {s : List Char} : shortEscape? e = some c → SpeltChar ('\\' :: e :: s) c s
  | unit {h₁ h₂ h₃ h₄ : Char} {n : Nat} {s : List Char} : hexValue4? h₁ h₂ h₃ h₄ = some n →
      isLowSurrogate n = false → isHighSurrogate n = false →
      SpeltChar ('\\' :: 'u' :: h₁ :: h₂ :: h₃ :: h₄ :: s) (Char.ofNat n) s
  | pair {h₁ h₂ h₃ h₄ l₁ l₂ l₃ l₄ : Char} {n m : Nat} {s : List Char} :
      hexValue4? h₁ h₂ h₃ h₄ = some n → hexValue4? l₁ l₂ l₃ l₄ = some m →
      isHighSurrogate n = true → isLowSurrogate m = true →
      SpeltChar ('\\' :: 'u' :: h₁ :: h₂ :: h₃ :: h₄ :: '\\' :: 'u' :: l₁ :: l₂ :: l₃ :: l₄ :: s)
        (ofSurrogates n m) s

/-- Characters up to a closing quote. -/
inductive SpeltChars : List Char → List Char → List Char → Prop where
  | close {s : List Char} : SpeltChars ('"' :: s) [] s
  | cons {c : Char} {cs s t u : List Char} : SpeltChar s c t → SpeltChars t cs u →
      SpeltChars s (c :: cs) u

/-- A string in quotes. -/
inductive SpeltString : List Char → String → List Char → Prop where
  | mk {cs s t : List Char} : SpeltChars s cs t → SpeltString ('"' :: s) (String.ofList cs) t

section Lists

variable {α : Type} (spelt : List Char → α → List Char → Prop)

/-- The items of a list up to its closing mark, with commas between them.  `first` says that no item
came before. -/
inductive SpeltItems (closing : Char) : Bool → List Char → List α → List Char → Prop where
  | close {first : Bool} {s t : List Char} : Blanks s (closing :: t) →
      SpeltItems closing first s [] t
  | first {x : α} {xs : List α} {s t u v : List Char} : Blanks s t → spelt t x u →
      SpeltItems closing false u xs v → SpeltItems closing true s (x :: xs) v
  | next {x : α} {xs : List α} {s t u v w : List Char} : Blanks s (',' :: t) → Blanks t u →
      spelt u x v → SpeltItems closing false v xs w → SpeltItems closing false s (x :: xs) w

/-- A sequence in brackets. -/
inductive SpeltSequence : List Char → List α → List Char → Prop where
  | mk {xs : List α} {s t : List Char} : SpeltItems spelt ']' true s xs t →
      SpeltSequence ('[' :: s) xs t

/-- An entry of a map: a key, a colon and a value. -/
inductive SpeltEntry : List Char → String × α → List Char → Prop where
  | mk {key : String} {x : α} {s t u v w : List Char} : SpeltString s key t → Blanks t (':' :: u) →
      Blanks u v → spelt v x w → SpeltEntry s (key, x) w

/-- A map in braces. -/
inductive SpeltMap : List Char → List (String × α) → List Char → Prop where
  | mk {es : List (String × α)} {s t : List Char} : SpeltItems (SpeltEntry spelt) '}' true s es t →
      SpeltMap ('{' :: s) es t

/-- Whether the whole text is a spelling of `x`, with blanks around it. -/
def SpeltText (text : String) (x : α) : Prop :=
  ∃ s t, Blanks text.toList s ∧ spelt s x t ∧ Blanks t []

end Lists

/-! ## Blanks -/

variable {s t u : List Char} {c : Char}

theorem Blanks.trans (h₁ : Blanks s t) (h₂ : Blanks t u) : Blanks s u := by
  induction h₁ with
  | none => exact h₂
  | cons hc _ ih => exact .cons hc (ih h₂)

theorem Blanks.length_le (h : Blanks s t) : t.length ≤ s.length := by
  induction h with
  | none => exact Nat.le_refl _
  | cons _ _ ih => exact Nat.le_succ_of_le ih

theorem blanks_skipBlank (s : List Char) : Blanks s (skipBlank s) := by
  unfold skipBlank
  induction s with
  | nil => exact .none
  | cons c s ih =>
    rw [List.dropWhile_cons]
    split_ifs with hc
    · exact .cons hc ih
    · exact .none

theorem skipBlank_of_blanks (h : Blanks s t) : skipBlank s = skipBlank t := by
  induction h with
  | none => rfl
  | @cons c s t hc _ ih =>
    rw [← ih]
    exact List.dropWhile_cons_of_pos hc

/-- Where something other than a blank follows, skipping comes there. -/
theorem skipBlank_eq (h : Blanks s (c :: t)) (hc : isBlank c = false) : skipBlank s = c :: t :=
  (skipBlank_of_blanks h).trans (skipBlank_cons hc t)

theorem blanks_of_skipBlank (h : skipBlank s = t) : Blanks s t := h ▸ blanks_skipBlank s

theorem skipBlank_eq_nil_iff : skipBlank s = [] ↔ Blanks s [] :=
  ⟨blanks_of_skipBlank, fun h => skipBlank_of_blanks h⟩

/-! ## Readers -/

/-- Whether a reader accepts exactly what is spelt behind blanks at the start of a text. -/
structure Matches {α : Type} (value : List Char → Reading α)
    (spelt : List Char → α → List Char → Prop) : Prop where
  begins : ∀ s x t, spelt s x t →
    ∃ c rest, s = c :: rest ∧ isBlank c = false ∧ c ≠ ']' ∧ t.length ≤ rest.length
  reads_iff : ∀ s x t, value s = .ok (x, t) ↔ ∃ u, Blanks s u ∧ spelt u x t

/-- What is refused is not read. -/
theorem refuse_ne_ok {α : Type} (wanted : String) (s : List Char) (found : α) :
    (refuse wanted s : Except Stop α) ≠ .ok found := by
  have hwrong {β : Type} (x : Except Stop β) (f : β → Found × List Char) :
      (x >>= fun b => (stopAt (.wrongType (f b).1 wanted) (f b).2 : Except Stop α)) ≠
        .ok found := by
    cases x with
    | error e => exact fun h => by cases h
    | ok b => exact fun h => by cases h
  unfold refuse
  split
  · exact hwrong _ fun rest => (.null, rest)
  · exact hwrong _ fun rest => (.boolean true, rest)
  · exact hwrong _ fun rest => (.boolean false, rest)
  · exact hwrong _ fun b : String × List Char => (.text b.1, b.2)
  · exact fun h => by cases h
  · exact fun h => by cases h
  · split_ifs
    · exact hwrong _ fun b : Number × List Char => (.number b.1, b.2)
    · exact fun h => by cases h
  · exact fun h => by cases h

/-! ## Strings -/

theorem readChars_pair {h₁ h₂ h₃ h₄ l₁ l₂ l₃ l₄ : Char} {n m : Nat}
    (hn : hexValue4? h₁ h₂ h₃ h₄ = some n) (hm : hexValue4? l₁ l₂ l₃ l₄ = some m)
    (hhigh : isHighSurrogate n = true) (hlow : isLowSurrogate m = true) (rest : List Char) :
    readChars
        ('\\' :: 'u' :: h₁ :: h₂ :: h₃ :: h₄ :: '\\' :: 'u' :: l₁ :: l₂ :: l₃ :: l₄ :: rest) =
      (readChars rest).map fun (xs, after) => (ofSurrogates n m :: xs, after) := by
  have hu : shortEscape? 'u' = none := by decide
  have hnot : isLowSurrogate n = false := by
    simp only [isHighSurrogate, isLowSurrogate, Bool.and_eq_true, decide_eq_true_eq,
      Bool.and_eq_false_iff, decide_eq_false_iff_not] at *
    omega
  rw [readChars.eq_def]
  simp [hu, hn, hm, hnot, hhigh, hlow]

/-- Each character is read as what it stands for. -/
theorem readChars_of_speltChar (h : SpeltChar s c t) :
    readChars s = (readChars t).map fun (xs, after) => (c :: xs, after) := by
  cases h with
  | plain hquote hback hc => exact readChars_plain hquote hback hc t
  | short he => exact readChars_shortEscape he t
  | unit hn hlow hhigh => exact readChars_hexEscape hn hlow hhigh t
  | pair hn hm hhigh hlow => exact readChars_pair hn hm hhigh hlow t

theorem readChars_of_speltChars {cs : List Char} (h : SpeltChars s cs t) :
    readChars s = .ok (cs, t) := by
  induction h with
  | close => exact readChars_close _
  | cons hc _ ih =>
    rw [readChars_of_speltChar hc, ih]
    rfl

theorem stopInHex_ne_ok {α : Type} (rest : List Char) (found : α) :
    (stopInHex rest : Except Stop α) ≠ .ok found := by
  unfold stopInHex
  split_ifs
  · exact fun h => by cases h
  · exact fun h => by cases h

theorem stopInPair_ne_ok {α : Type} (rest : List Char) (found : α) :
    (stopInPair rest : Except Stop α) ≠ .ok found := by
  unfold stopInPair
  split
  · exact fun h => by cases h
  · exact fun h => by cases h
  · exact stopInHex_ne_ok _ _
  · exact fun h => by cases h
  · exact fun h => by cases h

/-- Characters that were read end with the closing quote, or begin with one that is spelt. -/
theorem readChars_cases {cs : List Char} (h : readChars s = .ok (cs, t)) :
    (s = '"' :: t ∧ cs = []) ∨
      ∃ c rest more, SpeltChar s c rest ∧ cs = c :: more ∧ readChars rest = .ok (more, t) := by
  have hcons {s rest : List Char} {c : Char} (hc : SpeltChar s c rest)
      (hread : (readChars rest).map (fun (xs, after) => (c :: xs, after)) = .ok (cs, t)) :
      ∃ c rest more, SpeltChar s c rest ∧ cs = c :: more ∧ readChars rest = .ok (more, t) := by
    obtain ⟨⟨more, after⟩, hmore, heq⟩ := map_eq_ok_iff.1 hread
    obtain ⟨rfl, rfl⟩ := Prod.mk.inj heq
    exact ⟨c, rest, more, hc, rfl, hmore⟩
  revert h
  fun_cases readChars s with
  | case2 rest =>
    intro h
    obtain ⟨rfl, rfl⟩ := Prod.mk.inj (Except.ok.inj h)
    exact .inl ⟨rfl, rfl⟩
  | case4 e rest c he =>
    intro h
    exact .inr (hcons (.short he) h)
  | case8 h₁ h₂ h₃ h₄ n hn hnot hhigh l₁ l₂ l₃ l₄ rest m hm hlow =>
    intro h
    exact .inr (hcons (.pair hn hm hhigh hlow) h)
  | case11 h₁ h₂ h₃ h₄ rest n hn hlow hhigh =>
    intro h
    exact .inr (hcons (.unit hn (by simpa using hlow) (by simpa using hhigh)) h)
  | case15 c rest hquote hback hc =>
    intro h
    exact .inr (hcons (.plain hquote hback (by omega)) h)
  -- the other texts are refused
  | case10 => exact fun h => absurd h (stopInPair_ne_ok _ _)
  | case12 => exact fun h => absurd h (stopInHex_ne_ok _ _)
  | _ =>
    intro h
    cases h

theorem speltChars_of_readChars {cs : List Char} (h : readChars s = .ok (cs, t)) :
    SpeltChars s cs t := by
  induction cs generalizing s with
  | nil =>
    rcases readChars_cases h with ⟨rfl, -⟩ | ⟨_, _, _, -, heq, -⟩
    · exact .close
    · cases heq
  | cons c cs ih =>
    rcases readChars_cases h with ⟨-, heq⟩ | ⟨_, rest, _, hc, heq, hmore⟩
    · cases heq
    · obtain ⟨rfl, rfl⟩ := List.cons.inj heq
      exact .cons hc (ih hmore)

theorem SpeltChar.length_lt (h : SpeltChar s c t) : t.length < s.length := by
  cases h <;> simp only [List.length_cons] <;> omega

theorem SpeltChars.length_le {cs : List Char} (h : SpeltChars s cs t) : t.length ≤ s.length := by
  induction h with
  | close => exact Nat.le_succ _
  | cons hc _ ih => exact ih.trans hc.length_lt.le

theorem readText_eq_ok_iff {key : String} :
    readText s = .ok (key, t) ↔ SpeltString ('"' :: s) key t := by
  unfold readText
  rw [map_eq_ok_iff]
  constructor
  · rintro ⟨⟨cs, rest⟩, hread, heq⟩
    obtain ⟨rfl, rfl⟩ := Prod.mk.inj heq
    exact .mk (speltChars_of_readChars hread)
  · rintro ⟨hchars⟩
    exact ⟨_, readChars_of_speltChars hchars, rfl⟩

theorem SpeltString.exists_quote {key : String} (h : SpeltString s key t) :
    ∃ rest, s = '"' :: rest ∧ t.length ≤ rest.length := by
  obtain ⟨hchars⟩ := h
  exact ⟨_, rfl, hchars.length_le⟩

theorem matches_string : Matches readString SpeltString where
  begins s x t h := by
    obtain ⟨rest, rfl, hlength⟩ := h.exists_quote
    exact ⟨'"', rest, rfl, by decide, by decide, hlength⟩
  reads_iff s x t := by
    unfold readString
    constructor
    · intro h
      split at h
      · rename_i rest hquote
        exact ⟨_, blanks_of_skipBlank hquote, readText_eq_ok_iff.1 h⟩
      · exact absurd h (refuse_ne_ok _ _ _)
    · rintro ⟨u, hblanks, hspelt⟩
      obtain ⟨rest, rfl, -⟩ := hspelt.exists_quote
      rw [skipBlank_eq hblanks (by decide)]
      exact readText_eq_ok_iff.2 hspelt

end PhotoTally.Json
