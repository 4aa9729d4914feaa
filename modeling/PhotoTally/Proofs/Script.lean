import PhotoTally.Proofs.Config
import PhotoTally.Proofs.Json.Value

/-!
# Scripts of one declaration

`IsScript` is the part of the grammar of JavaScript, in its edition of 2019 and outside of strict
mode, that has scripts of one `var` declaration with a literal behind it.  It is given piece by
piece: names, numbers, strings, and arrays and objects of literals.  A literal is told apart from
what follows it, if no digit does (`isTold_literal`), so a script can be read in one way only
(`IsDeclaration.unique`).
-/

namespace PhotoTally.Script

open Json

/-! ## The grammar -/

/-- The words that name no variable, even outside of strict mode. -/
def reservedWords : List String :=
  ["break", "case", "catch", "class", "const", "continue", "debugger", "default", "delete", "do",
    "else", "enum", "export", "extends", "false", "finally", "for", "function", "if", "import",
    "in", "instanceof", "new", "null", "return", "super", "switch", "this", "throw", "true", "try",
    "typeof", "var", "void", "while", "with"]

/-- What a literal stands for.  Strings are sequences of units of sixteen bits, and a number is the
one that is spelt, before any rounding. -/
inductive Value where
  | number (n : Nat)
  | text (units : List Nat)
  | array (elements : List Value)
  | object (properties : List (List Nat × Value))

/-- The units of a text. -/
def utf16 (s : String) : List Nat := s.toList.flatMap units

/-- The escapes of one letter, and the unit that each stands for. -/
def singleEscapes : List (Char × Nat) :=
  [('\'', 39), ('"', 34), ('\\', 92), ('b', 8), ('f', 12), ('n', 10), ('r', 13), ('t', 9),
    ('v', 11)]

/-- Whether a text stands for units between double quotes: a character that is no quote, backslash
or end of a line, or an escape. -/
inductive IsCharacters : List Char → List Nat → Prop where
  | plain {c : Char} : c ∉ ['"', '\\', '\n', '\r'] → IsCharacters [c] (units c)
  | single {e : Char} {n : Nat} : (e, n) ∈ singleEscapes → IsCharacters ['\\', e] [n]
  | numbered {w : List Char} {n : Nat} : IsUnitEscape w n → IsCharacters w [n]

/-- Whether a text is a string in double quotes. -/
def IsString (w : List Char) (s : List Nat) : Prop :=
  ∃ ws us, w = '"' :: ws.flatten ++ ['"'] ∧ List.Forall₂ IsCharacters ws us ∧ s = us.flatten

/-- Whether a text is a whole number in decimal digits, without a zero before others. -/
def IsDecimal (w : List Char) (n : Nat) : Prop :=
  (w = ['0'] ∨ IsDigits w ∧ w.head? ≠ some '0') ∧ n = Nat.ofDigitChars 10 w 0

/-- A property of an object.  One of the name `__proto__` would be something else. -/
inductive IsProperty {α : Type} (item : List Char → α → Prop) :
    List Char → List Nat × α → Prop where
  | mk {k a b w : List Char} {key : List Nat} {x : α} : IsString k key → key ≠ utf16 "__proto__" →
      IsBlanks a → IsBlanks b → item w x → IsProperty item (k ++ a ++ ':' :: (b ++ w)) (key, x)

/-- Whether a text is a literal. -/
inductive IsLiteral : List Char → Value → Prop where
  | number {w : List Char} {n : Nat} : IsDecimal w n → IsLiteral w (.number n)
  | text {w : List Char} {s : List Nat} : IsString w s → IsLiteral w (.text s)
  | array {w : List Char} {xs : List Value} : Enclosed IsLiteral '[' ']' w xs →
      IsLiteral w (.array xs)
  | object {w : List Char} {ps : List (List Nat × Value)} :
      Enclosed (IsProperty IsLiteral) '{' '}' w ps → IsLiteral w (.object ps)

/-- Whether a text is a declaration: `var`, a name, `=`, a literal and a semicolon, with blanks
between them. -/
def IsDeclaration (text name : String) (x : Value) : Prop :=
  ∃ a b c d e f w, text.toList = a ++ "var".toList ++ b ++ name.toList ++ c ++ '=' ::
      (d ++ w ++ e ++ ';' :: f) ∧
    b ≠ [] ∧ (∀ blanks ∈ [a, b, c, d, e, f], IsBlanks blanks) ∧ Config.IsIdentifier name ∧
      IsLiteral w x

/-- Whether a text is a script of one declaration.  The name of a variable is none of the reserved
words. -/
structure IsScript (text name : String) (x : Value) : Prop where
  declaration : IsDeclaration text name x
  free : name ∉ reservedWords

/-! ## Pieces of a text -/

variable {a b u v w t a' b' u' v' w' t' : List Char} {c c' : Char}

theorem takeWhile_blanks (ha : IsBlanks a) (hc : isBlank c = false) (u : List Char) :
    (a ++ c :: u).takeWhile isBlank = a := by
  rw [List.takeWhile_append_of_pos fun x hx => isBlank_iff.2 (ha x hx),
    List.takeWhile_cons_of_neg (by simp [hc]), List.append_nil]

/-- The blanks in front of another character are the same in any reading. -/
theorem blanks_inj (ha : IsBlanks a) (ha' : IsBlanks a') (hc : isBlank c = false)
    (hc' : isBlank c' = false) (h : a ++ c :: u = a' ++ c' :: u') : a = a' ∧ c = c' ∧ u = u' := by
  have hblanks : a = a' := by rw [← takeWhile_blanks ha hc u, h, takeWhile_blanks ha' hc' u']
  subst hblanks
  exact ⟨rfl, List.cons.inj (List.append_cancel_left h)⟩

theorem isDigit_of_isBlank (h : isBlank c = true) : c.isDigit = false := by
  rw [isBlank_iff] at h
  simp only [List.mem_cons, List.not_mem_nil, or_false] at h
  rcases h with rfl | rfl | rfl | rfl
  all_goals decide

/-- Whether a text does not go on with a digit. -/
def Ends (t : List Char) : Prop := ∀ c ∈ t.head?, c.isDigit = false

theorem ends_blanks (ha : IsBlanks a) (hc : c.isDigit = false) (u : List Char) :
    Ends (a ++ c :: u) := by
  intro d hd
  cases a with
  | nil =>
    obtain rfl := Option.some.inj hd
    exact hc
  | cons e a =>
    obtain rfl := Option.some.inj hd
    exact isDigit_of_isBlank (isBlank_iff.2 (ha e List.mem_cons_self))

/-! ### Strings -/

theorem isCharacters_cases {n : List Nat} (h : IsCharacters w n) :
    ∃ c v, w = c :: v ∧ c ≠ '"' := by
  cases h with
  | @plain c hc => exact ⟨c, [], rfl, fun h => hc (h ▸ List.mem_cons_self)⟩
  | single he => exact ⟨'\\', _, rfl, by decide⟩
  | numbered hw =>
    obtain ⟨_, _, _, _, rfl, -⟩ := isUnitEscape_iff.1 hw
    exact ⟨'\\', _, rfl, by decide⟩

theorem single_inj {e : Char} {n n' : Nat} (h : (e, n) ∈ singleEscapes)
    (h' : (e, n') ∈ singleEscapes) : n = n' := by
  have hfound : ∀ p ∈ singleEscapes, singleEscapes.find? (·.1 = p.1) = some p := by decide
  have hfirst : singleEscapes.find? (·.1 = e) = some (e, n) := hfound _ h
  have hsecond : singleEscapes.find? (·.1 = e) = some (e, n') := hfound _ h'
  exact (Prod.mk.inj (Option.some.inj (hfirst.symm.trans hsecond))).2

theorem single_ne {e : Char} {n : Nat} (h : (e, n) ∈ singleEscapes) : e ≠ 'u' := by
  have hnone : ∀ p ∈ singleEscapes, p.1 ≠ 'u' := by decide
  exact hnone _ h

/-- What stands for the first units of a string is the same in any reading. -/
theorem isCharacters_inj {n n' : List Nat} (h : IsCharacters w n) (h' : IsCharacters w' n')
    (heq : w ++ t = w' ++ t') : w = w' ∧ n = n' := by
  cases h with
  | @plain c hc =>
    cases h' with
    | plain hc' =>
      obtain rfl := (List.cons.inj heq).1
      exact ⟨rfl, rfl⟩
    | single he' =>
      obtain rfl := (List.cons.inj heq).1
      exact absurd (by simp) hc
    | numbered hw' =>
      obtain ⟨_, _, _, _, rfl, -⟩ := isUnitEscape_iff.1 hw'
      obtain rfl := (List.cons.inj heq).1
      exact absurd (by simp) hc
  | single he =>
    cases h' with
    | plain hc' =>
      obtain rfl := (List.cons.inj heq).1
      exact absurd (by simp) hc'
    | single he' =>
      obtain rfl := (List.cons.inj (List.cons.inj heq).2).1
      rw [single_inj he he']
      exact ⟨rfl, rfl⟩
    | numbered hw' =>
      obtain ⟨_, _, _, _, rfl, -⟩ := isUnitEscape_iff.1 hw'
      exact absurd (List.cons.inj (List.cons.inj heq).2).1 (single_ne he)
  | numbered hw =>
    obtain ⟨_, _, _, _, rfl, hn⟩ := isUnitEscape_iff.1 hw
    cases h' with
    | plain hc' =>
      obtain rfl := (List.cons.inj heq).1
      exact absurd (by simp) hc'
    | single he' => exact absurd (List.cons.inj (List.cons.inj heq).2).1.symm (single_ne he')
    | numbered hw' =>
      obtain ⟨_, _, _, _, rfl, hn'⟩ := isUnitEscape_iff.1 hw'
      obtain ⟨hsame, -⟩ := List.append_inj heq rfl
      cases hsame
      obtain rfl := Option.some.inj (hn.symm.trans hn')
      exact ⟨rfl, rfl⟩

/-- What stands in a string up to its closing quote is the same in any reading. -/
theorem characters_inj {ws ws' : List (List Char)} {us us' : List (List Nat)}
    (h : List.Forall₂ IsCharacters ws us) (h' : List.Forall₂ IsCharacters ws' us')
    (heq : ws.flatten ++ '"' :: t = ws'.flatten ++ '"' :: t') : ws = ws' ∧ us = us' := by
  induction h generalizing ws' us' with
  | nil =>
    cases h' with
    | nil => exact ⟨rfl, rfl⟩
    | cons hw' _ =>
      obtain ⟨c, v, rfl, hc⟩ := isCharacters_cases hw'
      exact absurd (List.cons.inj heq).1.symm hc
  | cons hw _ ih =>
    cases h' with
    | nil =>
      obtain ⟨c, v, rfl, hc⟩ := isCharacters_cases hw
      exact absurd (List.cons.inj heq).1 hc
    | cons hw' hws' =>
      rw [List.flatten_cons, List.flatten_cons, List.append_assoc, List.append_assoc] at heq
      obtain ⟨rfl, rfl⟩ := isCharacters_inj hw hw' heq
      obtain ⟨rfl, rfl⟩ := ih hws' (List.append_cancel_left heq)
      exact ⟨rfl, rfl⟩

theorem isString_inj {s s' : List Nat} (h : IsString w s) (h' : IsString w' s')
    (heq : w ++ t = w' ++ t') : w = w' ∧ s = s' := by
  obtain ⟨ws, us, rfl, hws, rfl⟩ := h
  obtain ⟨ws', us', rfl, hws', rfl⟩ := h'
  rw [List.append_assoc, List.append_assoc] at heq
  obtain ⟨rfl, rfl⟩ := characters_inj hws hws' (List.cons.inj heq).2
  exact ⟨rfl, rfl⟩

/-! ### Numbers -/

theorem IsDecimal.isDigits {n : Nat} (h : IsDecimal w n) : IsDigits w := by
  rcases h.1 with rfl | hdigits
  · exact ⟨by simp, by simp⟩
  · exact hdigits.1

theorem takeWhile_digits (h : IsDigits w) (ht : Ends t) : (w ++ t).takeWhile Char.isDigit = w := by
  rw [List.takeWhile_append_of_pos h.2]
  cases t with
  | nil => rw [List.takeWhile_nil, List.append_nil]
  | cons c t => rw [List.takeWhile_cons_of_neg (by simp [ht c rfl]), List.append_nil]

theorem isDecimal_inj {n n' : Nat} (h : IsDecimal w n) (h' : IsDecimal w' n') (ht : Ends t)
    (ht' : Ends t') (heq : w ++ t = w' ++ t') : w = w' ∧ n = n' := by
  have hw : w = w' := by
    rw [← takeWhile_digits h.isDigits ht, heq, takeWhile_digits h'.isDigits ht']
  exact ⟨hw, by rw [h.2, h'.2, hw]⟩

/-! ## Containers -/

section Containers

variable {α : Type} {item : List Char → α → Prop} {n : Nat} {x x' : α} {xs xs' : List α}

/-- Whether an item begins with a character that nothing else between items has. -/
def Begins (item : List Char → α → Prop) : Prop :=
  ∀ w x, item w x → ∃ c v, w = c :: v ∧ isBlank c = false ∧ c ∉ [']', '}']

/-- Whether items of up to `n` characters are told apart from what follows them. -/
structure IsTold (n : Nat) (item : List Char → α → Prop) : Prop where
  begins : Begins item
  inj {w w' t t' : List Char} {x x' : α} : w.length ≤ n → item w x → item w' x' → Ends t →
    Ends t' → w ++ t = w' ++ t' → w = w' ∧ x = x'

/-- Whether a character can stand behind an item and the blanks behind that. -/
structure IsMark (c : Char) : Prop where
  solid : isBlank c = false
  digitless : c.isDigit = false

theorem isMark_comma : IsMark ',' := ⟨by decide, by decide⟩

section Items

variable (hitem : IsTold n item)

include hitem

/-- An item, and the blanks in front of it, are the same in any reading. -/
theorem item_inj (ha : IsBlanks a) (ha' : IsBlanks a') (hv : item v x) (hv' : item v' x')
    (hlength : v.length ≤ n) (ht : Ends t) (ht' : Ends t')
    (heq : a ++ (v ++ t) = a' ++ (v' ++ t')) : a = a' ∧ v = v' ∧ x = x' ∧ t = t' := by
  obtain ⟨d, rest, hd, hblank, -⟩ := hitem.begins v x hv
  obtain ⟨d', rest', hd', hblank', -⟩ := hitem.begins v' x' hv'
  have hblanks : a = a' ∧ d = d' ∧ rest ++ t = rest' ++ t' := by
    rw [hd, hd'] at heq
    exact blanks_inj ha ha' hblank hblank' heq
  obtain ⟨rfl, -, -⟩ := hblanks
  replace heq := List.append_cancel_left heq
  obtain ⟨rfl, rfl⟩ := hitem.inj hlength hv hv' ht ht' heq
  exact ⟨rfl, rfl, rfl, List.append_cancel_left heq⟩

/-- And so are the blanks and the mark behind it. -/
theorem around_inj (ha : IsBlanks a) (ha' : IsBlanks a') (hb : IsBlanks b) (hb' : IsBlanks b')
    (hc : IsMark c) (hc' : IsMark c') (hv : item v x) (hv' : item v' x') (hlength : v.length ≤ n)
    (heq : a ++ v ++ b ++ c :: u = a' ++ v' ++ b' ++ c' :: u') :
    a ++ v ++ b = a' ++ v' ++ b' ∧ x = x' ∧ c = c' ∧ u = u' := by
  simp only [List.append_assoc] at heq
  obtain ⟨rfl, rfl, rfl, hbehind⟩ := item_inj hitem ha ha' hv hv' hlength
    (ends_blanks hb hc.digitless u) (ends_blanks hb' hc'.digitless u') heq
  obtain ⟨rfl, rfl, rfl⟩ := blanks_inj hb hb' hc.solid hc'.solid hbehind
  exact ⟨rfl, rfl, rfl, rfl⟩

theorem listing_inj (hc : IsMark c) (hcomma : c ≠ ',') (h : Json.Listing item w xs)
    (h' : Json.Listing item w' xs') (hlength : w.length ≤ n) (heq : w ++ c :: t = w' ++ c :: t') :
    w = w' ∧ xs = xs' := by
  induction h generalizing w' xs' with
  | last ha hv hb =>
    have hv_length := hlength
    simp only [List.length_append] at hv_length
    cases h' with
    | last ha' hv' hb' =>
      obtain ⟨hw, rfl, -, -⟩ := around_inj hitem ha ha' hb hb' hc hc hv hv' (by omega) heq
      exact ⟨hw, rfl⟩
    | more ha' hv' hb' _ =>
      rw [List.append_assoc (_ ++ _ ++ _) (',' :: _)] at heq
      obtain ⟨-, -, hmark, -⟩ :=
        around_inj hitem ha ha' hb hb' hc isMark_comma hv hv' (by omega) heq
      exact absurd hmark hcomma
  | more ha hv hb hrest ih =>
    have hv_length := hlength
    simp only [List.length_append, List.length_cons] at hv_length
    rw [List.append_assoc (_ ++ _ ++ _) (',' :: _)] at heq
    cases h' with
    | last ha' hv' hb' =>
      obtain ⟨-, -, hmark, -⟩ :=
        around_inj hitem ha ha' hb hb' isMark_comma hc hv hv' (by omega) heq
      exact absurd hmark.symm hcomma
    | more ha' hv' hb' hrest' =>
      rw [List.append_assoc (_ ++ _ ++ _) (',' :: _)] at heq
      obtain ⟨hw, rfl, -, hmore⟩ :=
        around_inj hitem ha ha' hb hb' isMark_comma isMark_comma hv hv' (by omega) heq
      obtain ⟨rfl, rfl⟩ := ih hrest' (by omega) hmore
      rw [hw]
      exact ⟨rfl, rfl⟩

end Items

/-- Items do not begin with the mark that ends them. -/
theorem listing_begins (hitem : Begins item) (h : Json.Listing item w xs) :
    ∃ a d rest, IsBlanks a ∧ w = a ++ d :: rest ∧ isBlank d = false ∧ d ∉ [']', '}'] := by
  cases h with
  | @last a w b x ha hv hb =>
    obtain ⟨d, rest, rfl, hd⟩ := hitem _ _ hv
    refine ⟨a, d, rest ++ b, ha, ?_, hd⟩
    rw [List.append_assoc, List.cons_append]
  | @more a w b v x xs ha hv hb _ =>
    obtain ⟨d, rest, rfl, hd⟩ := hitem _ _ hv
    refine ⟨a, d, rest ++ (b ++ ',' :: v), ha, ?_, hd⟩
    rw [List.append_assoc, List.append_assoc, List.cons_append]

section Items

variable (hitem : IsTold n item)

include hitem

/-- Items between two marks are the same in any reading. -/
theorem enclosed_inj {o : Char} (hclosing : c ∈ [']', '}']) (h : Enclosed item o c w xs)
    (h' : Enclosed item o c w' xs') (hlength : w.length ≤ n + 1) (heq : w ++ t = w' ++ t') :
    w = w' ∧ xs = xs' := by
  have hc : IsMark c ∧ c ≠ ',' := by
    rcases List.mem_pair.1 hclosing with rfl | rfl
    · exact ⟨⟨by decide, by decide⟩, by decide⟩
    · exact ⟨⟨by decide, by decide⟩, by decide⟩
  -- blanks alone are no items
  have hdiffer {b v s s' : List Char} {ys : List α} (hb : IsBlanks b)
      (hv : Json.Listing item v ys) (h : b ++ c :: s = v ++ s') : False := by
    obtain ⟨a, d, rest, ha, rfl, hblank, hd⟩ := listing_begins hitem.begins hv
    rw [List.append_assoc, List.cons_append] at h
    obtain ⟨-, rfl, -⟩ := blanks_inj hb ha hc.1.solid hblank h
    exact hd hclosing
  cases h with
  | empty hb =>
    cases h' with
    | empty hb' =>
      rw [List.append_assoc, List.append_assoc] at heq
      obtain ⟨rfl, -, -⟩ :=
        blanks_inj hb hb' hc.1.solid hc.1.solid (List.cons.inj heq).2
      exact ⟨rfl, rfl⟩
    | items hv' =>
      rw [List.append_assoc, List.append_assoc] at heq
      exact (hdiffer hb hv' (List.cons.inj heq).2).elim
  | items hv =>
    rw [List.append_assoc] at heq
    cases h' with
    | empty hb' =>
      rw [List.append_assoc] at heq
      exact (hdiffer hb' hv (List.cons.inj heq).2.symm).elim
    | items hv' =>
      rw [List.append_assoc] at heq
      simp only [List.length_append, List.length_cons, List.length_nil] at hlength
      obtain ⟨rfl, rfl⟩ :=
        listing_inj hitem hc.1 hc.2 hv hv' (by omega) (List.cons.inj heq).2
      exact ⟨rfl, rfl⟩

theorem isTold_property : IsTold n (IsProperty item) := by
  refine ⟨fun w p h => ?_, fun {w w' t t' p p'} hlength h h' ht ht' heq => ?_⟩
  · cases h with
    | mk hkey =>
      obtain ⟨ws, us, rfl, -, -⟩ := hkey
      exact ⟨'"', _, rfl, by decide, by decide⟩
  · cases h with
    | mk hkey _ ha hb hv =>
      cases h' with
      | mk hkey' _ ha' hb' hv' =>
        simp only [List.length_append, List.length_cons] at hlength
        simp only [List.append_assoc, List.cons_append] at heq
        obtain ⟨rfl, rfl⟩ := isString_inj hkey hkey' heq
        obtain ⟨rfl, -, hbehind⟩ := blanks_inj ha ha' (by decide) (by decide)
          (List.append_cancel_left heq)
        obtain ⟨rfl, rfl, rfl, -⟩ := item_inj hitem hb hb' hv hv' (by omega) ht ht' hbehind
        exact ⟨rfl, rfl⟩

end Items

end Containers

/-! ## Literals -/

/-- Whether a character begins the literals of a value's kind. -/
def Value.opens : Value → Char → Bool
  | number _, c => c.isDigit
  | text _, c => c = '"'
  | array _, c => c = '['
  | object _, c => c = '{'

theorem opens_of_isLiteral {x : Value} (h : IsLiteral w x) :
    ∃ c v, w = c :: v ∧ x.opens c = true := by
  cases h with
  | number h =>
    obtain ⟨hne, hdigits⟩ := h.isDigits
    cases w with
    | nil => exact absurd rfl hne
    | cons c v => exact ⟨c, v, rfl, hdigits c List.mem_cons_self⟩
  | text h =>
    obtain ⟨ws, us, rfl, -, -⟩ := h
    exact ⟨'"', _, rfl, rfl⟩
  | array h => cases h <;> exact ⟨'[', _, rfl, rfl⟩
  | object h => cases h <;> exact ⟨'{', _, rfl, rfl⟩

/-- A literal begins with a digit or with one of three marks. -/
theorem begins_literal : Begins IsLiteral := by
  intro w x h
  obtain ⟨c, v, rfl, hopens⟩ := opens_of_isLiteral h
  refine ⟨c, v, rfl, ?_⟩
  cases x with
  | number n =>
    have hdigit : c.isDigit = true := hopens
    refine ⟨?_, fun hc => ?_⟩
    · rw [← Bool.not_eq_true]
      intro hblank
      rw [isDigit_of_isBlank hblank] at hdigit
      cases hdigit
    · rcases List.mem_pair.1 hc with rfl | rfl
      · exact absurd hdigit (by decide)
      · exact absurd hdigit (by decide)
  | text _ =>
    obtain rfl := of_decide_eq_true hopens
    decide
  | array _ =>
    obtain rfl := of_decide_eq_true hopens
    decide
  | object _ =>
    obtain rfl := of_decide_eq_true hopens
    decide

/-- A character begins literals of one kind. -/
theorem opens_cases {x x' : Value} (h : x.opens c = true) (h' : x'.opens c = true) :
    (∃ n n', x = .number n ∧ x' = .number n') ∨ (∃ s s', x = .text s ∧ x' = .text s') ∨
      (∃ xs xs', x = .array xs ∧ x' = .array xs') ∨ ∃ ps ps', x = .object ps ∧ x' = .object ps' := by
  have hdigitless : '"'.isDigit = false ∧ '['.isDigit = false ∧ '{'.isDigit = false := by decide
  obtain ⟨hquote, hbracket, hbrace⟩ := hdigitless
  unfold Value.opens at h h'
  cases x <;> cases x' <;> simp_all

/-- A literal is told apart from what follows it, if that is no digit. -/
theorem isTold_literal (n : Nat) : IsTold n IsLiteral := by
  induction n with
  | zero =>
    refine ⟨begins_literal, fun {w w' t t' x x'} hlength h _ _ _ _ => ?_⟩
    obtain ⟨c, v, rfl, -⟩ := opens_of_isLiteral h
    cases hlength
  | succ n ih =>
    refine ⟨begins_literal, fun {w w' t t' x x'} hlength h h' ht ht' heq => ?_⟩
    obtain ⟨c, v, hw, hopens⟩ := opens_of_isLiteral h
    obtain ⟨c', v', hw', hopens'⟩ := opens_of_isLiteral h'
    obtain rfl : c = c' := by
      rw [hw, hw'] at heq
      exact (List.cons.inj heq).1
    rcases opens_cases hopens hopens' with ⟨_, _, rfl, rfl⟩ | ⟨_, _, rfl, rfl⟩ | ⟨_, _, rfl, rfl⟩ |
      ⟨_, _, rfl, rfl⟩
    · cases h with
      | number h => cases h' with
        | number h' =>
          obtain ⟨rfl, rfl⟩ := isDecimal_inj h h' ht ht' heq
          exact ⟨rfl, rfl⟩
    · cases h with
      | text h => cases h' with
        | text h' =>
          obtain ⟨rfl, rfl⟩ := isString_inj h h' heq
          exact ⟨rfl, rfl⟩
    · cases h with
      | array h => cases h' with
        | array h' =>
          obtain ⟨rfl, rfl⟩ := enclosed_inj ih (by decide) h h' hlength heq
          exact ⟨rfl, rfl⟩
    · cases h with
      | object h => cases h' with
        | object h' =>
          obtain ⟨rfl, rfl⟩ := enclosed_inj (isTold_property ih) (by decide) h h' hlength heq
          exact ⟨rfl, rfl⟩

/-! ## What is declared -/

theorem isIdentifierRest_of_mem {name : String} (h : Config.isIdentifier name = true) :
    ∀ c ∈ name.toList, Config.isIdentifierRest c = true := by
  unfold Config.isIdentifier at h
  cases hname : name.toList with
  | nil => simp
  | cons first rest =>
    rw [hname] at h
    simp only [Bool.and_eq_true, List.all_eq_true] at h
    rw [List.forall_mem_cons]
    refine ⟨?_, h.2⟩
    unfold Config.isIdentifierRest
    rw [h.1, Bool.true_or]

/-- Without its blanks an identifier is what it is. -/
theorem filter_identifier {name : String} (h : Config.isIdentifier name = true) :
    name.toList.filter (!isBlank ·) = name.toList := by
  refine List.filter_eq_self.2 fun c hc => ?_
  have hrest := isIdentifierRest_of_mem h c hc
  rw [Bool.not_eq_true', ← Bool.not_eq_true, isBlank_iff]
  simp only [List.mem_cons, List.not_mem_nil, or_false]
  rintro (rfl | rfl | rfl | rfl)
  all_goals exact absurd hrest (by decide)

theorem filter_blanks {w : List Char} (h : IsBlanks w) :
    w.filter (!isBlank ·) = [] := by
  refine List.filter_eq_nil_iff.2 fun c hc => ?_
  rw [isBlank_iff.2 (h c hc)]
  decide

theorem equals_not_mem_of_isBlanks {w : List Char} (h : IsBlanks w) : '=' ∉ w := by
  intro hmem
  exact absurd (h _ hmem) (by decide)

/-- The part of a declaration in front of its first `=`, and the part behind it. -/
theorem cut_declaration {name : String} (ha : IsBlanks a) (hb : IsBlanks b) (hu : IsBlanks u)
    (h : Config.isIdentifier name = true) (rest : List Char) :
    (a ++ "var".toList ++ b ++ name.toList ++ u ++ '=' :: rest).span (· ≠ '=') =
      (a ++ "var".toList ++ b ++ name.toList ++ u, '=' :: rest) := by
  have hfront : ∀ x ∈ a ++ "var".toList ++ b ++ name.toList ++ u, decide (x ≠ '=') = true := by
    intro x hx
    rw [decide_eq_true_iff]
    rintro rfl
    simp only [List.mem_append, or_assoc] at hx
    rcases hx with hx | hx | hx | hx | hx
    · exact equals_not_mem_of_isBlanks ha hx
    · exact absurd hx (by decide)
    · exact equals_not_mem_of_isBlanks hb hx
    · exact Config.equals_not_mem_of_isIdentifier h hx
    · exact equals_not_mem_of_isBlanks hu hx
  rw [List.span_eq_takeWhile_dropWhile, List.takeWhile_append_of_pos hfront,
    List.dropWhile_append_of_pos hfront]
  simp

/-- A declaration can be read in one way only. -/
theorem IsDeclaration.unique {text name name' : String} {x x' : Value}
    (h : IsDeclaration text name x) (h' : IsDeclaration text name' x') : name = name' ∧ x = x' := by
  obtain ⟨a, b, u, d, e, f, w, htext, -, hblanks, hname, hw⟩ := h
  obtain ⟨a', b', u', d', e', f', w', htext', -, hblanks', hname', hw'⟩ := h'
  simp only [List.forall_mem_cons] at hblanks hblanks'
  obtain ⟨ha, hb, hu, hd, he, -⟩ := hblanks
  obtain ⟨ha', hb', hu', hd', he', -⟩ := hblanks'
  have hidentifier := (Config.isIdentifier_iff name).2 hname
  have hidentifier' := (Config.isIdentifier_iff name').2 hname'
  have hcut := cut_declaration ha hb hu hidentifier (d ++ w ++ e ++ ';' :: f)
  rw [← htext, htext', cut_declaration ha' hb' hu' hidentifier'] at hcut
  obtain ⟨hfront, hbehind⟩ := Prod.mk.inj hcut
  constructor
  · -- without its blanks the front is `var` and the name
    replace hfront := congrArg (List.filter (!isBlank ·)) hfront
    simp only [List.filter_append, filter_blanks ha, filter_blanks hb, filter_blanks hu,
      filter_blanks ha', filter_blanks hb', filter_blanks hu', filter_identifier hidentifier,
      filter_identifier hidentifier', List.nil_append, List.append_nil] at hfront
    exact String.toList_injective (List.append_cancel_left hfront).symm
  · have hmark : IsMark ';' := ⟨by decide, by decide⟩
    obtain ⟨-, hvalue, -⟩ := around_inj (isTold_literal w'.length) hd' hd he' he hmark hmark hw' hw
      le_rfl (List.cons.inj hbehind).2
    exact hvalue.symm

end PhotoTally.Script
