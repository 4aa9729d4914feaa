import PhotoTally.Proofs.Json.Acceptance
import Mathlib.Data.Nat.Digits.Defs

/-!
# JSON texts

`Spells w v` is the grammar of JSON: the whole of `w` is a spelling of the value `v`.  It is given
piece by piece and without a rest, with `Denotes` for what stands for a character inside quotes and
`Enclosed` for what stands between brackets.  The grammar that the readers follow is this one with a
rest of the text behind each piece (`leaves_text`, `leaves_sequence`, `leaves_map`), so a whole text
spells the same in both (`speltText_iff`).
-/

namespace PhotoTally.Json

/-! ## Strings -/

/-- Whether a text has only blanks. -/
def IsBlanks (w : List Char) : Prop := ∀ c ∈ w, c ∈ [' ', '\t', '\n', '\r']

/-- The escapes of one letter, and what each stands for. -/
def shortEscapes : List (Char × Char) :=
  [('"', '"'), ('\\', '\\'), ('/', '/'), ('b', '\x08'), ('f', '\x0c'), ('n', '\n'), ('r', '\r'),
    ('t', '\t')]

/-- Whether a character is the hexadecimal digit of a number, small or large. -/
def IsHexDigit (c : Char) (n : Nat) : Prop :=
  "0123456789abcdef".toList[n]? = some c ∨ "0123456789ABCDEF".toList[n]? = some c

/-- Whether a text is the escape of a number of four hexadecimal digits. -/
def IsUnitEscape (w : List Char) (n : Nat) : Prop :=
  ∃ digits values, w = '\\' :: 'u' :: digits ∧ digits.length = 4 ∧
    List.Forall₂ IsHexDigit digits values ∧ n = Nat.ofDigits 16 values.reverse

/-- The numbers of at most four hexadecimal digits that stand for a character: its own, or those of
two halves. -/
def units (c : Char) : List Nat :=
  if c.toNat < 0x10000 then [c.toNat]
  else [0xD800 + (c.toNat - 0x10000) / 0x400, 0xDC00 + (c.toNat - 0x10000) % 0x400]

/-- Whether a text stands for a character inside quotes. -/
inductive Denotes : List Char → Char → Prop where
  | plain {c : Char} : c ≠ '"' → c ≠ '\\' → 0x20 ≤ c.toNat → Denotes [c] c
  | short {e c : Char} : (e, c) ∈ shortEscapes → Denotes ['\\', e] c
  | numbered {ws : List (List Char)} {c : Char} : List.Forall₂ IsUnitEscape ws (units c) →
      Denotes ws.flatten c

/-- Whether a text spells a string in quotes. -/
def IsQuoted (w : List Char) (s : String) : Prop :=
  ∃ ws, w = '"' :: ws.flatten ++ ['"'] ∧ List.Forall₂ Denotes ws s.toList

/-! ## Containers -/

section Containers

variable {α : Type} (item : List Char → α → Prop)

/-- One item or more, with commas between them and blanks around each. -/
inductive Listing : List Char → List α → Prop where
  | last {a w b : List Char} {x : α} : IsBlanks a → item w x → IsBlanks b →
      Listing (a ++ w ++ b) [x]
  | more {a w b v : List Char} {x : α} {xs : List α} : IsBlanks a → item w x → IsBlanks b →
      Listing v xs → Listing (a ++ w ++ b ++ ',' :: v) (x :: xs)

/-- Items between two marks. -/
inductive Enclosed (opening closing : Char) : List Char → List α → Prop where
  | empty {b : List Char} : IsBlanks b → Enclosed opening closing (opening :: b ++ [closing]) []
  | items {w : List Char} {xs : List α} : Listing item w xs →
      Enclosed opening closing (opening :: w ++ [closing]) xs

/-- An entry of a map: a key, a colon and a value. -/
inductive Member : List Char → String × α → Prop where
  | mk {k a b w : List Char} {key : String} {x : α} : IsQuoted k key → IsBlanks a → IsBlanks b →
      item w x → Member (k ++ a ++ ':' :: (b ++ w)) (key, x)

end Containers

/-! ## Values -/

/-- Whether a text has digits, one at least. -/
def IsDigits (w : List Char) : Prop := w ≠ [] ∧ ∀ c ∈ w, c.isDigit

/-- Whether a text is a number: a sign, the whole part, a fraction and an exponent. -/
def IsNumber (w : List Char) : Prop :=
  ∃ sign whole fraction exponent, w = sign ++ whole ++ fraction ++ exponent ∧
    sign ∈ [[], ['-']] ∧
    (whole = ['0'] ∨ IsDigits whole ∧ whole.head? ≠ some '0') ∧
    (fraction = [] ∨ ∃ digits, fraction = '.' :: digits ∧ IsDigits digits) ∧
    (exponent = [] ∨ ∃ e side digits, exponent = e :: side ++ digits ∧ e ∈ ['e', 'E'] ∧
      side ∈ [[], ['+'], ['-']] ∧ IsDigits digits)

/-- A value.  A number is kept as it is spelt. -/
inductive Value where
  | null
  | boolean (b : Bool)
  | number (spelling : List Char)
  | text (s : String)
  | sequence (xs : List Value)
  | map (entries : List (String × Value))

/-- Whether a text, without blanks around it, spells a value. -/
inductive Spells : List Char → Value → Prop where
  | null : Spells "null".toList .null
  | boolean (b : Bool) : Spells (toString b).toList (.boolean b)
  | number {w : List Char} : IsNumber w → Spells w (.number w)
  | text {w : List Char} {s : String} : IsQuoted w s → Spells w (.text s)
  | sequence {w : List Char} {xs : List Value} : Enclosed Spells '[' ']' w xs →
      Spells w (.sequence xs)
  | map {w : List Char} {es : List (String × Value)} : Enclosed (Member Spells) '{' '}' w es →
      Spells w (.map es)

/-- Whether a whole text spells a value. -/
def IsText (text : String) (v : Value) : Prop :=
  ∃ a w b, text.toList = a ++ w ++ b ∧ IsBlanks a ∧ Spells w v ∧ IsBlanks b

/-! ## A rest behind each piece -/

/-- Whether the first grammar is the second with a rest of the text behind each piece. -/
def Leaves {α : Type} (spelt : List Char → α → List Char → Prop) (item : List Char → α → Prop) :
    Prop :=
  ∀ s x t, spelt s x t ↔ ∃ w, s = w ++ t ∧ item w x

variable {s t w : List Char}

theorem isBlank_iff {c : Char} : isBlank c = true ↔ c ∈ [' ', '\t', '\n', '\r'] := by
  unfold isBlank
  simp only [Bool.or_eq_true, decide_eq_true_eq, List.mem_cons, List.not_mem_nil, or_false,
    or_assoc]

theorem blanks_iff : Blanks s t ↔ ∃ w, s = w ++ t ∧ IsBlanks w := by
  constructor
  · intro h
    induction h with
    | none => exact ⟨[], rfl, fun c hc => by cases hc⟩
    | @cons c s t hc _ ih =>
      obtain ⟨w, rfl, hw⟩ := ih
      refine ⟨c :: w, rfl, fun d hd => ?_⟩
      rcases List.mem_cons.1 hd with rfl | hd
      · exact isBlank_iff.1 hc
      · exact hw d hd
  · rintro ⟨w, rfl, hw⟩
    induction w with
    | nil => exact .none
    | cons c w ih =>
      exact .cons (isBlank_iff.2 (hw c List.mem_cons_self))
        (ih fun d hd => hw d (List.mem_cons_of_mem c hd))

theorem IsBlanks.blanks (h : IsBlanks w) (t : List Char) : Blanks (w ++ t) t :=
  blanks_iff.2 ⟨w, rfl, h⟩

theorem isBlanks_nil : IsBlanks [] := fun _ h => by cases h

/-! ### Characters -/

theorem mem_shortEscapes {e c : Char} : (e, c) ∈ shortEscapes ↔ shortEscape? e = some c := by
  unfold shortEscapes shortEscape?
  simp only [List.mem_cons, Prod.mk.injEq, List.not_mem_nil, or_false]
  split_ifs <;> simp_all [eq_comm]

theorem hexValue?_eq_some_iff {c : Char} {n : Nat} : hexValue? c = some n ↔ IsHexDigit c n := by
  constructor
  · have hdigits : ∀ k < 128, ∀ n ∈ hexValue? (Char.ofNat k), IsHexDigit (Char.ofNat k) n := by
      unfold IsHexDigit
      decide
    intro h
    have hc : c.toNat < 128 := by
      unfold hexValue? at h
      split_ifs at h with h₁ h₂ h₃
      · exact Nat.lt_of_le_of_lt h₁.2 (by decide)
      · exact Nat.lt_of_le_of_lt h₂.2 (by decide)
      · exact Nat.lt_of_le_of_lt h₃.2 (by decide)
    have := hdigits c.toNat hc n
    rw [Char.ofNat_toNat] at this
    exact this h
  · have hvalues : ∀ n < 16, "0123456789abcdef".toList[n]?.bind hexValue? = some n ∧
        "0123456789ABCDEF".toList[n]?.bind hexValue? = some n := by
      decide
    rintro (h | h)
    · have := (hvalues n (List.getElem?_eq_some_iff.1 h).1).1
      rwa [h] at this
    · have := (hvalues n (List.getElem?_eq_some_iff.1 h).1).2
      rwa [h] at this

theorem hexValue4?_eq_some_iff {a b c d : Char} {n : Nat} :
    hexValue4? a b c d = some n ↔ IsUnitEscape ['\\', 'u', a, b, c, d] n := by
  unfold hexValue4? IsUnitEscape
  constructor
  · intro h
    split at h
    · rename_i ha hb hc hd
      refine ⟨[a, b, c, d], _, rfl, rfl, .cons (hexValue?_eq_some_iff.1 ha)
        (.cons (hexValue?_eq_some_iff.1 hb) (.cons (hexValue?_eq_some_iff.1 hc)
          (.cons (hexValue?_eq_some_iff.1 hd) .nil))), ?_⟩
      obtain rfl := Option.some.inj h
      simp only [List.reverse_cons, List.reverse_nil, List.nil_append, List.cons_append,
        Nat.ofDigits_cons, Nat.ofDigits_nil]
      push_cast
      omega
    · cases h
  · rintro ⟨digits, values, heq, -, hvalues, rfl⟩
    obtain rfl := (List.cons.inj (List.cons.inj heq).2).2
    obtain ⟨x, _, ha, h₃, rfl⟩ := List.forall₂_cons_left_iff.1 hvalues
    obtain ⟨y, _, hb, h₂, rfl⟩ := List.forall₂_cons_left_iff.1 h₃
    obtain ⟨z, _, hc, h₁, rfl⟩ := List.forall₂_cons_left_iff.1 h₂
    obtain ⟨u, _, hd, h₀, rfl⟩ := List.forall₂_cons_left_iff.1 h₁
    obtain rfl := List.forall₂_nil_left_iff.1 h₀
    rw [hexValue?_eq_some_iff.2 ha, hexValue?_eq_some_iff.2 hb, hexValue?_eq_some_iff.2 hc,
      hexValue?_eq_some_iff.2 hd]
    simp only [List.reverse_cons, List.reverse_nil, List.nil_append, List.cons_append,
      Nat.ofDigits_cons, Nat.ofDigits_nil, Option.some.injEq]
    push_cast
    omega

/-- An escape of a number has four digits. -/
theorem isUnitEscape_iff {n : Nat} : IsUnitEscape w n ↔
    ∃ a b c d, w = ['\\', 'u', a, b, c, d] ∧ hexValue4? a b c d = some n := by
  constructor
  · intro h
    obtain ⟨digits, values, rfl, hlength, hvalues, rfl⟩ := h
    obtain ⟨a, b, c, d, rfl⟩ := List.length_eq_four.1 hlength
    exact ⟨a, b, c, d, rfl, hexValue4?_eq_some_iff.2 ⟨_, values, rfl, rfl, hvalues, rfl⟩⟩
  · rintro ⟨a, b, c, d, rfl, h⟩
    exact hexValue4?_eq_some_iff.1 h

theorem hexValue4?_lt {a b c d : Char} {n : Nat} (h : hexValue4? a b c d = some n) :
    n < 0x10000 := by
  obtain ⟨digits, values, -, hlength, hvalues, rfl⟩ := hexValue4?_eq_some_iff.1 h
  have hsmall : ∀ v ∈ values.reverse, v < 16 := by
    intro v hv
    obtain ⟨i, hi, rfl⟩ := List.getElem_of_mem (List.mem_reverse.1 hv)
    have heq := hvalues.length_eq
    rcases (List.forall₂_iff_get.1 hvalues).2 i (by omega) hi with hdigit | hdigit
    · exact (List.getElem?_eq_some_iff.1 hdigit).1
    · exact (List.getElem?_eq_some_iff.1 hdigit).1
  have := Nat.ofDigits_lt_base_pow_length (by decide) hsmall
  rwa [List.length_reverse, ← hvalues.length_eq, hlength] at this

theorem toNat_ofNat_of_isValidChar {n : Nat} (h : n.isValidChar) : (Char.ofNat n).toNat = n := by
  unfold Char.ofNat
  rw [dif_pos h]
  rfl

/-- A number that is no half of a pair is that of a character. -/
theorem units_ofNat {n : Nat} (hn : n < 0x10000) (hlow : isLowSurrogate n = false)
    (hhigh : isHighSurrogate n = false) : units (Char.ofNat n) = [n] := by
  have hvalid : n.isValidChar := by
    unfold isLowSurrogate at hlow
    unfold isHighSurrogate at hhigh
    simp only [Bool.and_eq_false_iff, decide_eq_false_iff_not] at hlow hhigh
    unfold Nat.isValidChar
    omega
  unfold units
  rw [toNat_ofNat_of_isValidChar hvalid, if_pos hn]

/-- Two halves are the numbers of the character that they make. -/
theorem units_ofSurrogates {n m : Nat} (hhigh : isHighSurrogate n = true)
    (hlow : isLowSurrogate m = true) : units (ofSurrogates n m) = [n, m] := by
  unfold isHighSurrogate at hhigh
  unfold isLowSurrogate at hlow
  simp only [Bool.and_eq_true, decide_eq_true_eq] at hhigh hlow
  have hvalid : ((n - 0xD800) * 0x400 + (m - 0xDC00) + 0x10000).isValidChar := by
    unfold Nat.isValidChar
    omega
  unfold units ofSurrogates
  rw [toNat_ofNat_of_isValidChar hvalid, if_neg (by omega)]
  simp only [List.cons.injEq, and_true]
  omega

/-- The numbers of a character are its own, no half of a pair, or two halves. -/
theorem units_cases (c : Char) :
    (units c = [c.toNat] ∧ isLowSurrogate c.toNat = false ∧ isHighSurrogate c.toNat = false) ∨
      ∃ n m, units c = [n, m] ∧ isHighSurrogate n = true ∧ isLowSurrogate m = true ∧
        ofSurrogates n m = c := by
  have hvalid : c.toNat.isValidChar := c.valid
  unfold Nat.isValidChar at hvalid
  unfold units isHighSurrogate isLowSurrogate ofSurrogates
  simp only [Bool.and_eq_true, Bool.and_eq_false_iff, decide_eq_true_eq, decide_eq_false_iff_not]
  split_ifs with hsmall
  · exact .inl ⟨rfl, by omega, by omega⟩
  · refine .inr ⟨_, _, rfl, by omega, by omega, ?_⟩
    have hsum : (0xD800 + (c.toNat - 0x10000) / 0x400 - 0xD800) * 0x400 +
        (0xDC00 + (c.toNat - 0x10000) % 0x400 - 0xDC00) + 0x10000 = c.toNat := by
      omega
    rw [hsum, Char.ofNat_toNat]

theorem leaves_char : Leaves SpeltChar Denotes := by
  intro s c t
  constructor
  · intro h
    cases h with
    | plain hquote hback hc => exact ⟨_, rfl, .plain hquote hback hc⟩
    | short he => exact ⟨['\\', _], rfl, .short (mem_shortEscapes.2 he)⟩
    | unit hn hlow hhigh =>
      have hunits := List.Forall₂.cons (hexValue4?_eq_some_iff.1 hn) .nil
      rw [← units_ofNat (hexValue4?_lt hn) hlow hhigh] at hunits
      exact ⟨_, rfl, .numbered hunits⟩
    | pair hn hm hhigh hlow =>
      have hunits := List.Forall₂.cons (hexValue4?_eq_some_iff.1 hn)
        (.cons (hexValue4?_eq_some_iff.1 hm) .nil)
      rw [← units_ofSurrogates hhigh hlow] at hunits
      exact ⟨_, rfl, .numbered hunits⟩
  · rintro ⟨w, rfl, h⟩
    cases h with
    | plain hquote hback hc => exact .plain hquote hback hc
    | short he => exact .short (mem_shortEscapes.1 he)
    | @numbered ws _ hws =>
      rcases units_cases c with ⟨hunits, hlow, hhigh⟩ | ⟨n, m, hunits, hhigh, hlow, rfl⟩
      · rw [hunits] at hws
        obtain ⟨w, _, hw, hnil, rfl⟩ := List.forall₂_cons_right_iff.1 hws
        obtain rfl := List.forall₂_nil_right_iff.1 hnil
        obtain ⟨_, _, _, _, rfl, hn⟩ := isUnitEscape_iff.1 hw
        have := SpeltChar.unit (s := t) hn hlow hhigh
        rwa [Char.ofNat_toNat] at this
      · rw [hunits] at hws
        obtain ⟨w, _, hw, hrest, rfl⟩ := List.forall₂_cons_right_iff.1 hws
        obtain ⟨v, _, hv, hnil, rfl⟩ := List.forall₂_cons_right_iff.1 hrest
        obtain rfl := List.forall₂_nil_right_iff.1 hnil
        obtain ⟨_, _, _, _, rfl, hn⟩ := isUnitEscape_iff.1 hw
        obtain ⟨_, _, _, _, rfl, hm⟩ := isUnitEscape_iff.1 hv
        exact .pair hn hm hhigh hlow

/-! ### Strings -/

theorem speltChars_iff {cs : List Char} : SpeltChars s cs t ↔
    ∃ ws, s = ws.flatten ++ '"' :: t ∧ List.Forall₂ Denotes ws cs := by
  constructor
  · intro h
    induction h with
    | close => exact ⟨[], rfl, .nil⟩
    | cons hc _ ih =>
      obtain ⟨w, rfl, hw⟩ := (leaves_char _ _ _).1 hc
      obtain ⟨ws, rfl, hws⟩ := ih
      exact ⟨w :: ws, by simp, .cons hw hws⟩
  · rintro ⟨ws, rfl, h⟩
    induction h with
    | nil => exact .close
    | @cons w c ws cs hw _ ih =>
      refine .cons ((leaves_char _ _ _).2 ⟨w, ?_, hw⟩) ih
      rw [List.flatten_cons, List.append_assoc]

theorem leaves_string : Leaves SpeltString IsQuoted := by
  intro s x t
  constructor
  · rintro ⟨hchars⟩
    obtain ⟨ws, rfl, hws⟩ := speltChars_iff.1 hchars
    exact ⟨_, by simp, ws, rfl, by rwa [String.toList_ofList]⟩
  · rintro ⟨w, rfl, ws, rfl, hws⟩
    have : SpeltString ('"' :: (ws.flatten ++ '"' :: t)) (String.ofList x.toList) t :=
      .mk (speltChars_iff.2 ⟨ws, rfl, hws⟩)
    simpa using this

/-! ### Containers -/

section Containers

variable {α β : Type} {spelt : List Char → α → List Char → Prop} {item : List Char → α → Prop}

/-- Items that follow a comma instead of the opening mark. -/
theorem SpeltItems.after_comma {closing : Char} {x : α} {xs : List α} {b : List Char}
    (h : SpeltItems spelt closing true s (x :: xs) t) (hb : IsBlanks b) :
    SpeltItems spelt closing false (b ++ ',' :: s) (x :: xs) t := by
  cases h with
  | first hs hx hxs => exact .next (hb.blanks _) hs hx hxs

theorem speltItems_of_listing (h : Leaves spelt item) {closing : Char} {xs : List α}
    (hxs : Listing item w xs) (t : List Char) :
    SpeltItems spelt closing true (w ++ closing :: t) xs t := by
  induction hxs with
  | last ha hx hb =>
    rw [List.append_assoc, List.append_assoc]
    exact .first (ha.blanks _) ((h _ _ _).2 ⟨_, rfl, hx⟩) (.close (hb.blanks _))
  | more ha hx hb hmore ih =>
    rw [List.append_assoc, List.append_assoc, List.append_assoc]
    refine .first (ha.blanks _) ((h _ _ _).2 ⟨_, rfl, hx⟩) ?_
    cases hmore with
    | last => exact ih.after_comma hb
    | more => exact ih.after_comma hb

/-- What stands before the closing mark: nothing but blanks, or a list, which follows a comma unless
its first item is the first of all. -/
theorem listing_of_speltItems (h : Leaves spelt item) {closing : Char} {first : Bool} {xs : List α}
    (hxs : SpeltItems spelt closing first s xs t) :
    (xs = [] ∧ ∃ b, IsBlanks b ∧ s = b ++ closing :: t) ∨
      ∃ b w, IsBlanks b ∧ Listing item w xs ∧
        s = (if first then [] else b ++ [',']) ++ w ++ closing :: t := by
  -- one item, and what follows it
  have hcons {a w v t : List Char} {x : α} {xs : List α} (ha : IsBlanks a) (hx : item w x)
      (hxs : (xs = [] ∧ ∃ b, IsBlanks b ∧ v = b ++ closing :: t) ∨
        ∃ b w, IsBlanks b ∧ Listing item w xs ∧
          v = (if false then [] else b ++ [',']) ++ w ++ closing :: t) :
      ∃ u, Listing item u (x :: xs) ∧ a ++ (w ++ v) = u ++ closing :: t := by
    rcases hxs with ⟨rfl, b, hb, rfl⟩ | ⟨b, u, hb, hu, rfl⟩
    · exact ⟨_, .last ha hx hb, by simp⟩
    · exact ⟨_, .more ha hx hb hu, by simp⟩
  induction hxs with
  | close hs =>
    obtain ⟨b, rfl, hb⟩ := blanks_iff.1 hs
    exact .inl ⟨rfl, b, hb, rfl⟩
  | first hs hx _ ih =>
    obtain ⟨a, rfl, ha⟩ := blanks_iff.1 hs
    obtain ⟨w, rfl, hw⟩ := (h _ _ _).1 hx
    obtain ⟨u, hu, heq⟩ := hcons ha hw ih
    exact .inr ⟨[], u, isBlanks_nil, hu, heq⟩
  | next hs ht hx _ ih =>
    obtain ⟨b, rfl, hb⟩ := blanks_iff.1 hs
    obtain ⟨a, rfl, ha⟩ := blanks_iff.1 ht
    obtain ⟨w, rfl, hw⟩ := (h _ _ _).1 hx
    obtain ⟨u, hu, heq⟩ := hcons ha hw ih
    exact .inr ⟨b, u, hb, hu, by simp [heq]⟩

/-- Items between marks, where there may be none. -/
theorem leaves_enclosed (h : Leaves spelt item) (opening closing : Char) :
    Leaves (fun s xs t => ∃ u, s = opening :: u ∧ SpeltItems spelt closing true u xs t)
      (Enclosed item opening closing) := by
  intro s xs t
  constructor
  · rintro ⟨u, rfl, hxs⟩
    rcases listing_of_speltItems h hxs with ⟨rfl, b, hb, rfl⟩ | ⟨_, w, -, hw, rfl⟩
    · exact ⟨_, by simp, .empty hb⟩
    · exact ⟨_, by simp, .items hw⟩
  · rintro ⟨w, rfl, hw⟩
    cases hw with
    | empty hb => exact ⟨_, by simp, .close (hb.blanks _)⟩
    | items hw => exact ⟨_, by simp, speltItems_of_listing h hw t⟩

theorem leaves_member (h : Leaves spelt item) : Leaves (SpeltEntry spelt) (Member item) := by
  intro s e t
  constructor
  · rintro ⟨hkey, hcolon, hblanks, hx⟩
    obtain ⟨k, rfl, hk⟩ := (leaves_string _ _ _).1 hkey
    obtain ⟨a, rfl, ha⟩ := blanks_iff.1 hcolon
    obtain ⟨b, rfl, hb⟩ := blanks_iff.1 hblanks
    obtain ⟨w, rfl, hw⟩ := (h _ _ _).1 hx
    exact ⟨_, by simp, .mk hk ha hb hw⟩
  · rintro ⟨_, rfl, ⟨hk, ha, hb, hw⟩⟩
    refine .mk ((leaves_string _ _ _).2 ⟨_, ?_, hk⟩) (ha.blanks _) (hb.blanks _)
      ((h _ _ _).2 ⟨_, rfl, hw⟩)
    simp

theorem listing_map_iff {item : List Char → β → Prop} {f : α → β} {xs : List α} :
    Listing item w (xs.map f) ↔ Listing (fun w x => item w (f x)) w xs := by
  constructor
  · intro h
    generalize hys : xs.map f = ys at h
    induction h generalizing xs with
    | last ha hx hb =>
      obtain ⟨x, rfl, rfl⟩ := List.map_eq_singleton_iff.1 hys
      exact .last ha hx hb
    | more ha hx hb _ ih =>
      obtain ⟨x, xs, rfl, rfl, rfl⟩ := List.map_eq_cons_iff.1 hys
      exact .more ha hx hb (ih rfl)
  · intro h
    induction h with
    | last ha hx hb => exact .last ha hx hb
    | more ha hx hb _ ih => exact .more ha hx hb ih

theorem enclosed_map_iff {item : List Char → β → Prop} {f : α → β} {xs : List α}
    {opening closing : Char} : Enclosed item opening closing w (xs.map f) ↔
      Enclosed (fun w x => item w (f x)) opening closing w xs := by
  constructor
  · intro h
    generalize hys : xs.map f = ys at h
    cases h with
    | empty hb =>
      obtain rfl := List.map_eq_nil_iff.1 hys
      exact .empty hb
    | items hw =>
      subst hys
      exact .items (listing_map_iff.1 hw)
  · intro h
    cases h with
    | empty hb => exact .empty hb
    | items hw => exact .items (listing_map_iff.2 hw)

theorem member_map_iff {item : List Char → β → Prop} {f : α → β} {e : String × α} :
    Member item w (e.1, f e.2) ↔ Member (fun w x => item w (f x)) w e := by
  obtain ⟨key, x⟩ := e
  constructor
  · rintro ⟨hk, ha, hb, hx⟩
    exact .mk hk ha hb hx
  · rintro ⟨hk, ha, hb, hx⟩
    exact .mk hk ha hb hx

end Containers

/-! ### Values -/

section Values

variable {α : Type} {spelt : List Char → α → List Char → Prop} {f : α → Value}

theorem leaves_text : Leaves SpeltString fun w s => Spells w (.text s) := by
  intro s x t
  rw [leaves_string]
  refine exists_congr fun w => and_congr_right fun _ => ⟨.text, fun h => ?_⟩
  cases h with
  | text hquoted => exact hquoted

theorem leaves_sequence (h : Leaves spelt fun w x => Spells w (f x)) :
    Leaves (SpeltSequence spelt) fun w xs => Spells w (.sequence (xs.map f)) := by
  intro s xs t
  have hitems := leaves_enclosed h '[' ']' s xs t
  constructor
  · rintro ⟨hxs⟩
    obtain ⟨w, hw, hencl⟩ := hitems.1 ⟨_, rfl, hxs⟩
    exact ⟨w, hw, .sequence (enclosed_map_iff.2 hencl)⟩
  · rintro ⟨w, hw, hspells⟩
    cases hspells with
    | sequence hencl =>
      obtain ⟨u, rfl, hxs⟩ := hitems.2 ⟨w, hw, enclosed_map_iff.1 hencl⟩
      exact .mk hxs

theorem leaves_map (h : Leaves spelt fun w x => Spells w (f x)) :
    Leaves (SpeltMap spelt) fun w es => Spells w (.map (es.map fun e => (e.1, f e.2))) := by
  intro s es t
  have hmember : Leaves (SpeltEntry spelt) fun w e => Member Spells w (e.1, f e.2) := by
    intro s e t
    simp only [member_map_iff]
    exact leaves_member h s e t
  have hitems := leaves_enclosed hmember '{' '}' s es t
  constructor
  · rintro ⟨hes⟩
    obtain ⟨w, hw, hencl⟩ := hitems.1 ⟨_, rfl, hes⟩
    exact ⟨w, hw, .map (enclosed_map_iff.2 hencl)⟩
  · rintro ⟨w, hw, hspells⟩
    cases hspells with
    | map hencl =>
      obtain ⟨u, rfl, hes⟩ := hitems.2 ⟨w, hw, enclosed_map_iff.1 hencl⟩
      exact .mk hes

/-- A whole text in the one grammar and in the other. -/
theorem speltText_iff (h : Leaves spelt fun w x => Spells w (f x)) {text : String} {x : α} :
    SpeltText spelt text x ↔ IsText text (f x) := by
  constructor
  · rintro ⟨s, t, hs, hx, ht⟩
    obtain ⟨a, htext, ha⟩ := blanks_iff.1 hs
    obtain ⟨w, rfl, hw⟩ := (h _ _ _).1 hx
    obtain ⟨b, rfl, hb⟩ := blanks_iff.1 ht
    exact ⟨a, w, b, by simpa using htext, ha, hw, hb⟩
  · rintro ⟨a, w, b, htext, ha, hw, hb⟩
    refine ⟨w ++ b, b, ?_, (h _ _ _).2 ⟨w, rfl, hw⟩, ?_⟩
    · rw [htext, List.append_assoc]
      exact ha.blanks _
    · exact blanks_iff.2 ⟨b, (List.append_nil b).symm, hb⟩

end Values

end PhotoTally.Json
