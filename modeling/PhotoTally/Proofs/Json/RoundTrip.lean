import PhotoTally.Json.Reader
import PhotoTally.Json.Writer
import Mathlib.Tactic

/-!
# Reading what was written

`ReadsBack value written x`: the reader `value` makes `x` of the text `written` and leaves alone
what follows it.  Strings read back (`readsBack_quote`), and sequences and maps read back if what
they hold does (`readsBack_sequence`, `readsBack_map`).  A record is read back field by field:
`Steps` says what each written field does to the fields that were read before (`Steps.readEntries`).
`readAll_written` is the step from there to a whole text.
-/

namespace PhotoTally.Json

variable {α : Type}

/-! ## Strings -/

/-- The two digits of a control character, behind two zeros. -/
theorem hexValue4?_control {n : Nat} (h : n < 0x20) :
    hexValue4? '0' '0' (hexDigit (n / 16)) (hexDigit n) = some n := by
  revert n; decide

theorem readChars_close (rest : List Char) : readChars ('"' :: rest) = .ok ([], rest) := by
  rw [readChars.eq_def]
  rfl

theorem readChars_shortEscape {e x : Char} (h : shortEscape? e = some x) (rest : List Char) :
    readChars ('\\' :: e :: rest) =
      (readChars rest).map fun (xs, after) => (x :: xs, after) := by
  rw [readChars.eq_def]
  simp [h]

theorem readChars_hexEscape {h₁ h₂ h₃ h₄ : Char} {n : Nat} (h : hexValue4? h₁ h₂ h₃ h₄ = some n)
    (hlow : isLowSurrogate n = false) (hhigh : isHighSurrogate n = false) (rest : List Char) :
    readChars ('\\' :: 'u' :: h₁ :: h₂ :: h₃ :: h₄ :: rest) =
      (readChars rest).map fun (xs, after) => (Char.ofNat n :: xs, after) := by
  have hu : shortEscape? 'u' = none := by decide
  rw [readChars.eq_def]
  simp [hu, h, hlow, hhigh]

theorem readChars_plain {c : Char} (hquote : c ≠ '"') (hback : c ≠ '\\') (hc : 0x20 ≤ c.toNat)
    (rest : List Char) :
    readChars (c :: rest) = (readChars rest).map fun (xs, after) => (c :: xs, after) := by
  have hnot : ¬ c.toNat < 0x20 := by omega
  rw [readChars.eq_def]
  simp only [hquote, hback, hnot, if_false]

/-- What stands for a character inside quotes is read as that character. -/
theorem readChars_escape (c : Char) (rest : List Char) :
    readChars (escape c ++ rest) =
      (readChars rest).map fun (xs, after) => (c :: xs, after) := by
  unfold escape
  by_cases hquote : c = '"'
  · subst hquote; exact readChars_shortEscape (by decide) rest
  by_cases hback : c = '\\'
  · subst hback; exact readChars_shortEscape (by decide) rest
  by_cases hb : c = '\x08'
  · subst hb; exact readChars_shortEscape (by decide) rest
  by_cases hf : c = '\x0c'
  · subst hf; exact readChars_shortEscape (by decide) rest
  by_cases hn : c = '\n'
  · subst hn; exact readChars_shortEscape (by decide) rest
  by_cases hr : c = '\r'
  · subst hr; exact readChars_shortEscape (by decide) rest
  by_cases ht : c = '\t'
  · subst ht; exact readChars_shortEscape (by decide) rest
  rw [if_neg hquote, if_neg hback, if_neg hb, if_neg hf, if_neg hn, if_neg hr, if_neg ht]
  by_cases hc : c.toNat < 0x20
  · -- a control character is no half of a pair
    have hlow : isLowSurrogate c.toNat = false := by simp [isLowSurrogate]; omega
    have hhigh : isHighSurrogate c.toNat = false := by simp [isHighSurrogate]; omega
    have := readChars_hexEscape (hexValue4?_control hc) hlow hhigh rest
    rw [if_pos hc]
    rwa [Char.ofNat_toNat] at this
  · rw [if_neg hc]
    exact readChars_plain hquote hback (by omega) rest

theorem readChars_flatMap_escape (cs rest : List Char) :
    readChars (cs.flatMap escape ++ '"' :: rest) = .ok (cs, rest) := by
  induction cs with
  | nil => exact readChars_close rest
  | cons c cs ih =>
    rw [List.flatMap_cons, List.append_assoc, readChars_escape, ih]
    rfl

theorem readText_quote (s : String) (rest : List Char) :
    readText (s.toList.flatMap escape ++ '"' :: rest) = .ok (s, rest) := by
  unfold readText
  rw [readChars_flatMap_escape]
  simp [Except.map]

/-! ## Written values -/

/-- What may follow a value: nothing, or a character that ends it. -/
def Delimited (rest : List Char) : Prop := ∀ c ∈ rest.head?, c = ',' ∨ c = ']' ∨ c = '}'

theorem delimited_nil : Delimited [] := by
  intro c hc
  simp at hc

theorem delimited_cons {c : Char} (h : c = ',' ∨ c = ']' ∨ c = '}') (rest : List Char) :
    Delimited (c :: rest) := by
  intro d hd
  simp only [List.head?_cons, Option.mem_def, Option.some.injEq] at hd
  exact hd ▸ h

/-- Whether the reader makes `x` of a written text, whatever follows that can follow a value. -/
structure ReadsBack (value : List Char → Reading α) (written : List Char) (x : α) : Prop where
  begins : ∃ c tail, written = c :: tail ∧ isBlank c = false ∧ c ≠ ']'
  reads : ∀ rest, Delimited rest → value (written ++ rest) = .ok (x, rest)

theorem skipBlank_cons {c : Char} (h : isBlank c = false) (rest : List Char) :
    skipBlank (c :: rest) = c :: rest := by
  unfold skipBlank
  rw [List.dropWhile_cons_of_neg (by simp [h])]

theorem readsBack_quote (s : String) : ReadsBack readString (quote s) s where
  begins := ⟨'"', s.toList.flatMap escape ++ ['"'], rfl, by decide, by decide⟩
  reads rest _ := by
    unfold readString quote
    rw [List.cons_append, List.cons_append, skipBlank_cons (by decide), List.append_assoc]
    exact readText_quote s rest

/-- A sequence of written values, each with a comma before it. -/
theorem joinAll_cons (w : List Char) (ws : List (List Char)) :
    Text.joinAll ',' (w :: ws) = w ++ ws.flatMap (',' :: ·) := by
  induction ws generalizing w with
  | nil => simp [Text.joinAll]
  | cons v ws ih =>
    rw [Text.joinAll, ih, List.flatMap_cons, List.cons_append]
    simp

theorem delimited_more {β : Type} (xs : List β) (f : β → List Char) {c : Char}
    (hc : c = ',' ∨ c = ']' ∨ c = '}') (rest : List Char) :
    Delimited (xs.flatMap (fun x => ',' :: f x) ++ c :: rest) := by
  cases xs with
  | nil => exact delimited_cons hc rest
  | cons y ys => exact delimited_cons (.inl rfl) _

theorem length_le_flatMap {β : Type} (xs : List β) (f : β → List Char) :
    xs.length ≤ (xs.flatMap fun x => ',' :: f x).length := by
  induction xs with
  | nil => simp
  | cons x xs ih =>
    simp only [List.flatMap_cons, List.length_append, List.length_cons]
    omega

/-! ## Sequences -/

section Sequence

variable {value : List Char → Reading α} {write : α → List Char}

theorem nextElement_close (first : Bool) (rest : List Char) :
    nextElement first (']' :: rest) = .ok none := by
  unfold nextElement
  rw [skipBlank_cons (by decide)]
  rfl

theorem nextElement_first {w : List Char} {x : α} (h : ReadsBack value w x) (rest : List Char) :
    nextElement true (w ++ rest) = .ok (some (w ++ rest)) := by
  obtain ⟨c, tail, rfl, hc, hne⟩ := h.begins
  unfold nextElement
  rw [List.cons_append, skipBlank_cons hc]
  split
  · simp_all
  · simp_all
  · simp_all

theorem nextElement_comma {w : List Char} {x : α} (h : ReadsBack value w x) (rest : List Char) :
    nextElement false (',' :: (w ++ rest)) = .ok (some (w ++ rest)) := by
  obtain ⟨c, tail, rfl, hc, hne⟩ := h.begins
  unfold nextElement
  rw [List.cons_append, skipBlank_cons (by decide)]
  split
  · simp_all
  · simp_all
  · rename_i first after _ hcomma
    obtain ⟨rfl, rfl⟩ := List.cons.inj hcomma
    rw [if_neg Bool.false_ne_true, if_pos rfl, skipBlank_cons hc]
    split
    · simp_all
    · simp_all
    · rfl

/-- The elements behind the first one. -/
theorem readElements_more {xs : List α} (h : ∀ x ∈ xs, ReadsBack value (write x) x)
    (rest : List Char) {fuel : Nat} (hfuel : xs.length < fuel) :
    readElements value fuel false (xs.flatMap (fun x => ',' :: write x) ++ ']' :: rest) =
      .ok (xs, rest) := by
  induction xs generalizing fuel with
  | nil =>
    obtain ⟨fuel, rfl⟩ := Nat.exists_eq_add_one_of_ne_zero (Nat.ne_zero_of_lt hfuel)
    rw [List.flatMap_nil, List.nil_append, readElements, nextElement_close]
    unfold closeSequence
    rw [skipBlank_cons (by decide)]
    rfl
  | cons x xs ih =>
    obtain ⟨fuel, rfl⟩ := Nat.exists_eq_add_one_of_ne_zero (Nat.ne_zero_of_lt hfuel)
    have hx := h x (by simp)
    have hdelim := delimited_more xs write (.inr (.inl rfl)) rest
    rw [List.flatMap_cons, List.cons_append, List.cons_append, List.append_assoc, readElements,
      nextElement_comma hx]
    simp only
    rw [hx.reads _ hdelim]
    simp only
    rw [ih (fun y hy => h y (by simp [hy])) (by simp at hfuel; omega)]
    rfl

theorem readElements_all {xs : List α} (h : ∀ x ∈ xs, ReadsBack value (write x) x)
    (rest : List Char) {fuel : Nat} (hfuel : xs.length < fuel) :
    readElements value fuel true (Text.joinAll ',' (xs.map write) ++ ']' :: rest) =
      .ok (xs, rest) := by
  obtain ⟨fuel, rfl⟩ : ∃ n, fuel = n + 1 := ⟨fuel - 1, by omega⟩
  cases xs with
  | nil =>
    rw [List.map_nil, Text.joinAll, List.nil_append, readElements, nextElement_close]
    unfold closeSequence
    rw [skipBlank_cons (by decide)]
    rfl
  | cons x xs =>
    have hx := h x (by simp)
    have hdelim := delimited_more xs write (.inr (.inl rfl)) rest
    rw [List.map_cons, joinAll_cons, List.append_assoc, List.flatMap_map, readElements,
      nextElement_first hx]
    simp only
    rw [hx.reads _ hdelim]
    simp only
    rw [readElements_more (fun y hy => h y (by simp [hy])) rest (by simp at hfuel; omega)]
    rfl

theorem readsBack_sequence {xs : List α} (h : ∀ x ∈ xs, ReadsBack value (write x) x) :
    ReadsBack (readSequence value) (writeSequence (xs.map write)) xs where
  begins := ⟨'[', Text.joinAll ',' (xs.map write) ++ [']'], rfl, by decide, by decide⟩
  reads rest _ := by
    unfold readSequence writeSequence
    rw [List.cons_append, List.cons_append, skipBlank_cons (by decide), List.append_assoc,
      List.singleton_append]
    refine readElements_all h rest ?_
    cases xs with
    | nil => simp
    | cons x xs =>
      have := length_le_flatMap xs write
      rw [List.map_cons, joinAll_cons, List.flatMap_map]
      simp only [List.length_append, List.length_cons]
      omega

end Sequence

/-! ## Records -/

theorem nextKey_close (first : Bool) (rest : List Char) :
    nextKey first ('}' :: rest) = .ok none := by
  unfold nextKey
  rw [skipBlank_cons (by decide)]
  rfl

/-- One entry is read, behind a comma unless it is the first. -/
theorem readEntries_field {σ : Type} {entry : σ → String → List Char → Reading σ} {st st₁ : σ}
    {key : String} {written rest : List Char} (first : Bool) (fuel : Nat)
    (h : entry st key (':' :: (written ++ rest)) = .ok (st₁, rest)) :
    readEntries entry (fuel + 1) first st
        ((if first then [] else [',']) ++ (quote key ++ ':' :: (written ++ rest))) =
      readEntries entry fuel false st₁ rest := by
  have htext : quote key ++ ':' :: (written ++ rest) =
      '"' :: (key.toList.flatMap escape ++ '"' :: ':' :: (written ++ rest)) := by
    simp [quote]
  have hkey : nextKey first
      ((if first then [] else [',']) ++ (quote key ++ ':' :: (written ++ rest))) =
      .ok (some (key.toList.flatMap escape ++ '"' :: ':' :: (written ++ rest))) := by
    rw [htext]
    cases first <;> rfl
  rw [readEntries, hkey]
  simp only
  rw [readText_quote]
  simp only
  rw [h]

section Record

variable {σ : Type} {entry : σ → String → List Char → Reading σ}

/-- What written fields do to the fields that were read before them, whatever follows. -/
inductive Steps (entry : σ → String → List Char → Reading σ) :
    σ → List (String × List Char) → σ → Prop where
  | nil {st : σ} : Steps entry st [] st
  | cons {st st₁ st₂ : σ} {key : String} {written : List Char}
      {more : List (String × List Char)} :
      (∀ rest, Delimited rest → entry st key (':' :: (written ++ rest)) = .ok (st₁, rest)) →
      Steps entry st₁ more st₂ → Steps entry st ((key, written) :: more) st₂

/-- A written field. -/
def writeField (e : String × List Char) : List Char := quote e.1 ++ ':' :: e.2

variable {st st' : σ} {fields : List (String × List Char)}

/-- The fields behind the first one. -/
theorem Steps.readEntries_more (h : Steps entry st fields st') (rest : List Char) {fuel : Nat}
    (hfuel : fields.length < fuel) :
    readEntries entry fuel false st
        (fields.flatMap (fun e => ',' :: writeField e) ++ '}' :: rest) = .ok (st', rest) := by
  induction h generalizing fuel with
  | nil =>
    obtain ⟨fuel, rfl⟩ := Nat.exists_eq_add_one_of_ne_zero (Nat.ne_zero_of_lt hfuel)
    rw [List.flatMap_nil, List.nil_append, readEntries, nextKey_close]
    simp only
    rw [skipBlank_cons (by decide), List.tail_cons]
  | @cons st st₁ st₂ key written more hfirst _ ih =>
    obtain ⟨fuel, rfl⟩ := Nat.exists_eq_add_one_of_ne_zero (Nat.ne_zero_of_lt hfuel)
    have hdelimited := delimited_more more writeField (.inr (.inr rfl)) rest
    have hstep := readEntries_field false fuel (hfirst _ hdelimited)
    rw [List.flatMap_cons, List.cons_append, List.cons_append, List.append_assoc, writeField,
      List.append_assoc, List.cons_append]
    refine hstep.trans (ih ?_)
    simpa using hfuel

/-- All fields of a written record. -/
theorem Steps.readEntries (h : Steps entry st fields st') (rest : List Char) :
    readEntries entry
        ((Text.joinAll ',' (fields.map writeField) ++ '}' :: rest).length + 1) true st
        (Text.joinAll ',' (fields.map writeField) ++ '}' :: rest) = .ok (st', rest) := by
  cases h with
  | nil =>
    rw [List.map_nil, Text.joinAll, List.nil_append, Json.readEntries, nextKey_close]
    simp only
    rw [skipBlank_cons (by decide), List.tail_cons]
  | @cons _ st₁ _ key written more hfirst hmore =>
    have hdelimited := delimited_more more writeField (.inr (.inr rfl)) rest
    have hlength := length_le_flatMap more writeField
    rw [List.map_cons, joinAll_cons, List.flatMap_map, List.append_assoc]
    have hstep := readEntries_field true
      (writeField (key, written) ++
        (more.flatMap (fun e => ',' :: writeField e) ++ '}' :: rest)).length
      (hfirst _ hdelimited)
    have htext : writeField (key, written) ++
        (more.flatMap (fun e => ',' :: writeField e) ++ '}' :: rest) =
        quote key ++ ':' :: (written ++
          (more.flatMap (fun e => ',' :: writeField e) ++ '}' :: rest)) := by
      rw [writeField, List.append_assoc, List.cons_append]
    rw [if_pos rfl, List.nil_append, ← htext] at hstep
    refine hstep.trans (hmore.readEntries_more rest ?_)
    simp only [List.length_append, List.length_cons]
    omega

end Record

/-- A record in braces begins as a written value does. -/
theorem begins_writeMap (fields : List (String × List Char)) :
    ∃ c tail, writeMap fields = c :: tail ∧ isBlank c = false ∧ c ≠ ']' :=
  ⟨'{', Text.joinAll ',' (fields.map writeField) ++ ['}'], rfl, by decide, by decide⟩

/-- The text of a written record, opened at its brace. -/
theorem writeMap_append (fields : List (String × List Char)) (rest : List Char) :
    writeMap fields ++ rest = '{' :: (Text.joinAll ',' (fields.map writeField) ++ '}' :: rest) := by
  show '{' :: (Text.joinAll ',' (fields.map writeField) ++ ['}'] ++ rest) = _
  rw [List.append_assoc, List.singleton_append]

/-! ## Maps -/

section Map

variable {value : List Char → Reading α} {write : α → List Char}

/-- What an entry of a map does to the entries before it. -/
def readEntry (value : List Char → Reading α) (entries : List (String × α)) (key : String)
    (s : List Char) : Reading (List (String × α)) :=
  match readColon s with
  | .error e => .error e
  | .ok s => (value s).map fun (v, rest) => (entries ++ [(key, v)], rest)

theorem readEntry_write {e : String × α} (h : ReadsBack value (write e.2) e.2)
    (entries : List (String × α)) {rest : List Char} (hrest : Delimited rest) :
    readEntry value entries e.1 (':' :: (write e.2 ++ rest)) = .ok (entries ++ [e], rest) := by
  unfold readEntry readColon
  rw [skipBlank_cons (by decide)]
  simp only
  rw [h.reads _ hrest]
  rfl

/-- The entries of a written map are added one by one. -/
theorem steps_entries {es : List (String × α)} (h : ∀ e ∈ es, ReadsBack value (write e.2) e.2)
    (entries : List (String × α)) :
    Steps (readEntry value) entries (es.map fun e => (e.1, write e.2)) (entries ++ es) := by
  induction es generalizing entries with
  | nil =>
    rw [List.append_nil]
    exact .nil
  | cons e es ih =>
    obtain ⟨he, hes⟩ := List.forall_mem_cons.1 h
    have hmore := ih hes (entries ++ [e])
    rw [List.append_assoc, List.singleton_append] at hmore
    exact .cons (fun rest hrest => readEntry_write he entries hrest) hmore

theorem readsBack_map (write : α → List Char) {es : List (String × α)}
    (h : ∀ e ∈ es, ReadsBack value (write e.2) e.2) :
    ReadsBack (readMap value) (writeMap (es.map fun e => (e.1, write e.2))) es where
  begins := begins_writeMap _
  reads rest _ := by
    have hread : ∀ text, readMap value ('{' :: text) =
        readEntries (readEntry value) (text.length + 1) true [] text := fun text => rfl
    rw [writeMap_append, hread]
    exact (steps_entries h []).readEntries rest

end Map

/-! ## Whole texts -/

/-- A text that is one written value spells that value. -/
theorem readAll_written {value : List Char → Reading α} {written : List Char} {x : α}
    (h : ReadsBack value written x) : readAll value (String.ofList written) = .ok x := by
  have hread := h.reads [] delimited_nil
  rw [List.append_nil] at hread
  unfold readAll
  rw [String.toList_ofList, hread]
  rfl

end PhotoTally.Json
