import PhotoTally.Proofs.Script

/-!
# Reports as scripts

What is written for a report is a literal, with the years and albums in order (`isLiteral_report`),
whatever characters their names have (`isCharacters_escape`).  So what is written as a script has
the shape of a declaration (`isDeclaration_render`).  It is a script that declares an accepted
variable unless the variable is one of the reserved words, which the grammar excepts from the names
and the check does not (`loads_iff`, `class_declares_nothing`).
-/

namespace PhotoTally

namespace Script

open Json

/-! ## Written literals -/

theorem isLiteral_count (n : Nat) : IsLiteral (writeCount n) (.number n) := by
  refine .number ⟨?_, Nat.ofDigitChars_ten_toDigits.symm⟩
  obtain ⟨d, ds, hdigits, hd, hzero⟩ := toDigits_cases n
  by_cases hd0 : d = 0
  · obtain ⟨rfl, -⟩ := hzero hd0
    exact .inl rfl
  · refine .inr ⟨⟨?_, fun c hc => ?_⟩, ?_⟩
    · rw [writeCount, hdigits]
      exact List.cons_ne_nil _ _
    · have hmem : c ∈ Nat.toDigits 10 n := hc
      exact Nat.isDigit_of_mem_toDigits (by decide) (by decide) hmem
    · have hfirst : ∀ d < 10, d ≠ 0 → d.digitChar ≠ '0' := by decide
      rw [writeCount, hdigits]
      exact fun h => hfirst d hd hd0 (Option.some.inj h)

/-- What is written for a character stands for its units. -/
theorem isCharacters_escape (c : Char) : IsCharacters (escape c) (units c) := by
  unfold escape
  by_cases hquote : c = '"'
  · subst hquote
    exact .single (by decide)
  by_cases hback : c = '\\'
  · subst hback
    exact .single (by decide)
  by_cases hb : c = '\x08'
  · subst hb
    exact .single (by decide)
  by_cases hf : c = '\x0c'
  · subst hf
    exact .single (by decide)
  by_cases hn : c = '\n'
  · subst hn
    exact .single (by decide)
  by_cases hr : c = '\r'
  · subst hr
    exact .single (by decide)
  by_cases ht : c = '\t'
  · subst ht
    exact .single (by decide)
  rw [if_neg hquote, if_neg hback, if_neg hb, if_neg hf, if_neg hn, if_neg hr, if_neg ht]
  by_cases hc : c.toNat < 0x20
  · have hunits : units c = [c.toNat] := if_pos (by omega)
    rw [if_pos hc, hunits]
    exact .numbered (hexValue4?_eq_some_iff.1 (hexValue4?_control hc))
  · rw [if_neg hc]
    exact .plain (by simp [hquote, hback, hn, hr])

theorem isString_quote (s : String) : IsString (quote s) (utf16 s) := by
  refine ⟨s.toList.map escape, s.toList.map units, ?_, ?_, ?_⟩
  · rw [quote, List.flatMap_def]
  · rw [List.forall₂_map_left_iff, List.forall₂_map_right_iff]
    exact List.forall₂_same.2 fun c _ => isCharacters_escape c
  · rw [utf16, List.flatMap_def]

section Containers

variable {α : Type} {item : List Char → α → Prop} {ws : List (List Char)} {xs : List α}

theorem listing_joinAll (hne : ws ≠ []) (h : List.Forall₂ item ws xs) :
    Json.Listing item (Text.joinAll ',' ws) xs := by
  induction h with
  | nil => exact absurd rfl hne
  | @cons w x ws xs hw hws ih =>
    cases hws with
    | nil => simpa [Text.joinAll] using Json.Listing.last isBlanks_nil hw isBlanks_nil
    | cons _ _ =>
      have hrest := ih (List.cons_ne_nil _ _)
      simpa [Text.joinAll] using Json.Listing.more isBlanks_nil hw isBlanks_nil hrest

/-- Items with commas between them are enclosed by the marks around them. -/
theorem enclosed_joinAll (opening closing : Char) (h : List.Forall₂ item ws xs) :
    Enclosed item opening closing (opening :: Text.joinAll ',' ws ++ [closing]) xs := by
  by_cases hne : ws = []
  · subst hne
    cases h
    exact .empty isBlanks_nil
  · exact .items (listing_joinAll hne h)

end Containers

theorem isLiteral_sequence {β : Type} {write : β → List Char} {value : β → Value}
    (h : ∀ b, IsLiteral (write b) (value b)) (bs : List β) :
    IsLiteral (writeSequence (bs.map write)) (.array (bs.map value)) := by
  refine .array (enclosed_joinAll '[' ']' ?_)
  rw [List.forall₂_map_left_iff, List.forall₂_map_right_iff]
  exact List.forall₂_same.2 fun b _ => h b

/-- Whether a field of a record is written as a property. -/
inductive IsField : String × List Char → List Nat × Value → Prop where
  | mk {name : String} {w : List Char} {v : Value} : utf16 name ≠ utf16 "__proto__" →
      IsLiteral w v → IsField (name, w) (utf16 name, v)

theorem isLiteral_map {es : List (String × List Char)} {ps : List (List Nat × Value)}
    (h : List.Forall₂ IsField es ps) : IsLiteral (writeMap es) (.object ps) := by
  refine .object (enclosed_joinAll '{' '}' ?_)
  rw [List.forall₂_map_left_iff]
  refine h.imp fun e p hfield => ?_
  cases hfield with
  | @mk name w v hplain hvalue =>
    simpa using IsProperty.mk (isString_quote name) hplain isBlanks_nil isBlanks_nil hvalue

end Script

/-! ## Reports -/

open Script

/-- An album as an object. -/
def AlbumCounts.value (c : AlbumCounts) : Value :=
  .object [(utf16 "album", .text (utf16 c.album)), (utf16 "total", .number c.total),
    (utf16 "edited", .number c.edited), (utf16 "deleted", .number c.deleted)]

/-- A year as an object. -/
def YearReport.value (y : YearReport) : Value :=
  .object [(utf16 "year", .text (utf16 y.year)), (utf16 "albums", .array (y.albums.map (·.value)))]

namespace Report

/-- A report as an array. -/
def value (r : Report) : Value := .array (r.years.map (·.value))

theorem isLiteral_album (c : AlbumCounts) : IsLiteral (writeAlbum c) c.value := by
  have hname : IsLiteral (Json.quote c.album) (.text (utf16 c.album)) :=
    .text (isString_quote c.album)
  exact isLiteral_map (.cons (.mk (by decide) hname)
    (.cons (.mk (by decide) (isLiteral_count c.total))
      (.cons (.mk (by decide) (isLiteral_count c.edited))
        (.cons (.mk (by decide) (isLiteral_count c.deleted)) .nil))))

theorem isLiteral_year (y : YearReport) : IsLiteral (writeYear y) y.value := by
  have hname : IsLiteral (Json.quote y.year) (.text (utf16 y.year)) := .text (isString_quote y.year)
  exact isLiteral_map (.cons (.mk (by decide) hname)
    (.cons (.mk (by decide) (isLiteral_sequence isLiteral_album y.albums)) .nil))

/-- The text of a report is an array of its years. -/
theorem isLiteral_report (r : Report) : IsLiteral r.encode.toList r.value := by
  rw [encode, String.toList_ofList]
  exact isLiteral_sequence isLiteral_year r.years

/-! ## Written scripts -/

theorem isDeclaration_render {name : String} (h : Config.IsIdentifier name) (r : Report) :
    IsDeclaration (r.render (.script name)) name r.value := by
  refine ⟨[], [' '], [], [], [], [], r.encode.toList, ?_, by decide, ?_, h, isLiteral_report r⟩
  · rw [toList_render_script]
    simp
  · have hblank : Json.IsBlanks [' '] := fun x hx => by
      obtain rfl := List.mem_singleton.1 hx
      decide
    simp only [List.forall_mem_cons]
    exact ⟨Json.isBlanks_nil, hblank, Json.isBlanks_nil, Json.isBlanks_nil, Json.isBlanks_nil,
      Json.isBlanks_nil, fun _ h => by cases h⟩

theorem isScript_render_iff {name n : String} {x : Value} (h : Config.IsIdentifier name)
    (r : Report) :
    IsScript (r.render (.script name)) n x ↔ n = name ∧ x = r.value ∧ name ∉ reservedWords := by
  have hrendered := isDeclaration_render h r
  constructor
  · intro hscript
    obtain ⟨rfl, rfl⟩ := hscript.declaration.unique hrendered
    exact ⟨rfl, rfl, hscript.free⟩
  · rintro ⟨rfl, rfl, hfree⟩
    exact ⟨hrendered, hfree⟩

/-- The script of an accepted configuration declares its variable and nothing else, with the years
and albums of the report in order, unless the variable is a reserved word.  Then it is no script. -/
theorem loads_iff {fs : FileSystem} {c valid : Config} {name : String}
    (hvalid : c.validate fs = .ok valid) (hformat : c.format = .script name) (r : Report)
    (n : String) (x : Value) :
    IsScript (r.render valid.format) n x ↔ n = name ∧ x = r.value ∧ name ∉ reservedWords := by
  obtain ⟨source, dest, -, -, hcheck, rfl⟩ := Config.validate_eq_ok_iff.1 hvalid
  have hname : Config.IsIdentifier name := Config.checkFormat_eq_ok_iff.1 hcheck name hformat
  have hrender : r.render c.format = r.render (.script name) := by rw [hformat]
  show IsScript (r.render c.format) n x ↔ _
  rw [hrender]
  exact isScript_render_iff hname r

/-- A report with the end of a line that JSON leaves unescaped, a control, a character of two units
and the largest count of a word. -/
def awkward : Report :=
  ⟨[⟨"2023", [⟨"\u2028\x01", 0xFFFFFFFFFFFFFFFF, 10, 0⟩, ⟨"\"😀\\", 0, 0, 0⟩]⟩, ⟨"", []⟩]⟩

/-- The configuration for a script that declares `name`. -/
def declaring (name : String) : Config := { scripted with format := .script name }

theorem loads_iff_awkward :
    (declaring "classes").validate (FileSystem.ofPaths ["/raws"] []) = .ok (declaring "classes") ∧
      "classes" ∉ reservedWords ∧
      IsScript (awkward.render (declaring "classes").format) "classes" awkward.value := by
  have hvalid : (declaring "classes").validate (FileSystem.ofPaths ["/raws"] []) =
      .ok (declaring "classes") := by
    decide +kernel
  have hfree : "classes" ∉ reservedWords := by decide
  exact ⟨hvalid, hfree, (loads_iff hvalid rfl awkward _ _).2 ⟨rfl, rfl, hfree⟩⟩

/-- The check lets a reserved word pass, and then no report is written as a script. -/
theorem class_declares_nothing :
    (declaring "class").validate (FileSystem.ofPaths ["/raws"] []) = .ok (declaring "class") ∧
      ∀ (r : Report) (n : String) (v : Value),
        ¬ IsScript (r.render (declaring "class").format) n v := by
  refine ⟨by decide +kernel, fun r n v hscript => ?_⟩
  have hname : Config.IsIdentifier "class" := (Config.isIdentifier_iff "class").1 (by decide)
  obtain ⟨-, -, hfree⟩ := (isScript_render_iff hname r).1 hscript
  exact hfree (by decide)

end Report

end PhotoTally
