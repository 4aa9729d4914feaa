import PhotoTally.Json.Writer
import Mathlib.Tactic

/-!
# Written JSON is compact

`bare` goes through a text and keeps what stands outside of strings.  Of what is written here that
is brackets, commas and colons only (`IsCompact`): strings have nothing outside (`isCompact_quote`),
and sequences and maps add their marks to what they hold (`isCompact_writeSequence`,
`isCompact_writeMap`).
-/

namespace PhotoTally.Json

/-- The characters outside of strings, their quotes left out.  Inside of a string a backslash hides
the character behind it. -/
def bare : Bool → List Char → List Char
  | _, [] => []
  | false, c :: rest => if c = '"' then bare true rest else c :: bare false rest
  | true, '\\' :: _ :: rest => bare true rest
  | true, c :: rest => if c = '"' then bare false rest else bare true rest

/-- The marks between the strings of a text. -/
def marks : List Char := ['[', ']', '\x7b', '\x7d', ',', ':']

/-- Whether a written text adds nothing but marks to what stands outside of strings. -/
def IsCompact (written : List Char) : Prop :=
  ∃ added, (∀ c ∈ added, c ∈ marks) ∧
    ∀ rest, bare false (written ++ rest) = added ++ bare false rest

theorem bare_of_ne {c : Char} (hquote : c ≠ '"') (hback : c ≠ '\\') (rest : List Char) :
    bare true (c :: rest) = bare true rest := by
  rw [bare.eq_def]
  split <;> simp_all

theorem bare_hexDigit (n : Nat) (rest : List Char) :
    bare true (hexDigit n :: rest) = bare true rest := by
  have hdigit : ∀ k < 16, Nat.digitChar k ≠ '"' ∧ Nat.digitChar k ≠ '\\' := by decide
  obtain ⟨hquote, hback⟩ := hdigit (n % 16) (Nat.mod_lt n (by decide))
  exact bare_of_ne hquote hback rest

/-- What stands for a character inside a string does not end the string. -/
theorem bare_escape (c : Char) (rest : List Char) :
    bare true (escape c ++ rest) = bare true rest := by
  unfold escape
  by_cases hquote : c = '"'
  · rw [if_pos hquote]; rfl
  by_cases hback : c = '\\'
  · rw [if_neg hquote, if_pos hback]; rfl
  rw [if_neg hquote, if_neg hback]
  split_ifs
  · rfl
  · rfl
  · rfl
  · rfl
  · rfl
  · show bare true ('0' :: '0' :: hexDigit _ :: hexDigit _ :: rest) = _
    rw [bare_of_ne (by decide) (by decide), bare_of_ne (by decide) (by decide), bare_hexDigit,
      bare_hexDigit]
  · exact bare_of_ne hquote hback rest

theorem isCompact_nil : IsCompact [] := ⟨[], by simp, fun _ => rfl⟩

theorem IsCompact.append {v w : List Char} (hv : IsCompact v) (hw : IsCompact w) :
    IsCompact (v ++ w) := by
  obtain ⟨added, hadded, hbare⟩ := hv
  obtain ⟨more, hmore, hbare'⟩ := hw
  refine ⟨added ++ more, ?_, fun rest => ?_⟩
  · intro c hc
    exact (List.mem_append.1 hc).elim (hadded c) (hmore c)
  · rw [List.append_assoc, hbare, hbare', List.append_assoc]

theorem isCompact_mark {c : Char} (h : c ∈ marks) : IsCompact [c] := by
  have hquote : c ≠ '"' := by
    rintro rfl
    exact absurd h (by decide)
  refine ⟨[c], by simpa using h, fun rest => ?_⟩
  rw [List.singleton_append, bare, if_neg hquote, List.singleton_append]

theorem isCompact_quote (s : String) : IsCompact (quote s) := by
  refine ⟨[], by simp, fun rest => ?_⟩
  have hchars : ∀ cs : List Char,
      bare true (cs.flatMap escape ++ '"' :: rest) = bare false rest := by
    intro cs
    induction cs with
    | nil => rfl
    | cons c cs ih => rw [List.flatMap_cons, List.append_assoc, bare_escape, ih]
  rw [quote, List.cons_append, List.cons_append, bare, if_pos rfl, List.append_assoc,
    List.singleton_append, hchars, List.nil_append]

theorem isCompact_joinAll {ws : List (List Char)} (h : ∀ w ∈ ws, IsCompact w) :
    IsCompact (Text.joinAll ',' ws) := by
  induction ws with
  | nil => exact isCompact_nil
  | cons w ws ih =>
    rw [List.forall_mem_cons] at h
    cases ws with
    | nil => exact h.1
    | cons v ws =>
      have hrest := (isCompact_mark (c := ',') (by decide)).append (ih h.2)
      exact h.1.append hrest

theorem isCompact_writeSequence {ws : List (List Char)} (h : ∀ w ∈ ws, IsCompact w) :
    IsCompact (writeSequence ws) := by
  have hopen : IsCompact ['['] := isCompact_mark (by decide)
  have hclose : IsCompact [']'] := isCompact_mark (by decide)
  exact hopen.append ((isCompact_joinAll h).append hclose)

theorem isCompact_writeMap {es : List (String × List Char)} (h : ∀ e ∈ es, IsCompact e.2) :
    IsCompact (writeMap es) := by
  have hopen : IsCompact ['\x7b'] := isCompact_mark (by decide)
  have hclose : IsCompact ['\x7d'] := isCompact_mark (by decide)
  have hcolon : IsCompact [':'] := isCompact_mark (by decide)
  refine hopen.append ((isCompact_joinAll fun w hw => ?_).append hclose)
  obtain ⟨e, he, rfl⟩ := List.mem_map.1 hw
  exact (isCompact_quote e.1).append (hcolon.append (h e he))

/-- Outside of its strings a compact text has marks only. -/
theorem IsCompact.mem_marks {written : List Char} (h : IsCompact written) :
    ∀ c ∈ bare false written, c ∈ marks := by
  obtain ⟨added, hadded, hbare⟩ := h
  have := hbare []
  rw [List.append_nil] at this
  rw [this]
  simpa [bare] using hadded

end PhotoTally.Json
