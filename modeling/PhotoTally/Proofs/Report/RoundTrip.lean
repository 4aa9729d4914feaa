import PhotoTally.Config
import PhotoTally.Proofs.FileSystem.Change
import PhotoTally.Proofs.Json.Counts

/-!
# A written report reads back

The JSON text of a report spells the report, if its counts fit a word (`decode_encode`).  In either
format the text is wrapped around this JSON text (`render_eq_wrap`).  An accepted variable has no
`=` in it, so a script can be cut into the variable and the JSON text, and a written report tells
its format (`render_unambiguous`).
-/

namespace PhotoTally

open Json

/-- Whether the counts of an album fit a word. -/
structure AlbumCounts.Fits (c : AlbumCounts) : Prop where
  total : c.total < wordBound
  edited : c.edited < wordBound
  deleted : c.deleted < wordBound

namespace Report

/-! ## Albums -/

/-- A field that comes for the first time is read behind its colon. -/
theorem readField_none {α β : Type} {value : List Char → Reading α} {written : List Char} {x : α}
    (h : ReadsBack value written x) (name : String) (set : α × List Char → β × List Char)
    {rest : List Char} (hrest : Delimited rest) :
    (readField name none value (':' :: (written ++ rest))).map set = .ok (set (x, rest)) := by
  have hfield : readField name none value (':' :: (written ++ rest)) = .ok (x, rest) := by
    unfold readField readColon
    rw [skipBlank_cons (by decide)]
    exact h.reads rest hrest
  rw [hfield]
  rfl

/-- The written fields of an album. -/
def albumEntries (c : AlbumCounts) : List (String × List Char) :=
  [("album", quote c.album), ("total", writeCount c.total), ("edited", writeCount c.edited),
    ("deleted", writeCount c.deleted)]

theorem steps_album {c : AlbumCounts} (h : c.Fits) :
    Steps AlbumFields.readEntry {} (albumEntries c)
      ⟨some c.album, some c.total, some c.edited, some c.deleted⟩ := by
  -- the fields that have been read after each of the first three
  let named : AlbumFields := { album := some c.album }
  let totalled : AlbumFields := { named with total := some c.total }
  let edited : AlbumFields := { totalled with edited := some c.edited }
  have halbum (rest) (hrest : Delimited rest) : AlbumFields.readEntry {} "album"
      (':' :: (quote c.album ++ rest)) = .ok (named, rest) :=
    readField_none (readsBack_quote c.album) "album" _ hrest
  have htotal (rest) (hrest : Delimited rest) : named.readEntry "total"
      (':' :: (writeCount c.total ++ rest)) = .ok (totalled, rest) :=
    readField_none (readsBack_count h.total) "total" _ hrest
  have hedited (rest) (hrest : Delimited rest) : totalled.readEntry "edited"
      (':' :: (writeCount c.edited ++ rest)) = .ok (edited, rest) :=
    readField_none (readsBack_count h.edited) "edited" _ hrest
  refine .cons halbum (.cons htotal (.cons hedited (.cons ?_ .nil)))
  intro rest hrest
  exact readField_none (readsBack_count h.deleted) "deleted" _ hrest

theorem readsBack_album {c : AlbumCounts} (h : c.Fits) : ReadsBack readAlbum (writeAlbum c) c where
  begins := begins_writeMap (albumEntries c)
  reads rest _ := by
    have htext : writeAlbum c ++ rest =
        '{' :: (Text.joinAll ',' ((albumEntries c).map writeField) ++ '}' :: rest) :=
      writeMap_append (albumEntries c) rest
    rw [htext, readAlbum, skipBlank_cons (by decide)]
    simp only [(steps_album h).readEntries rest]
    rfl

/-! ## Years -/

/-- The written fields of a year. -/
def yearEntries (y : YearReport) : List (String × List Char) :=
  [("year", quote y.year), ("albums", writeSequence (y.albums.map writeAlbum))]

theorem steps_year {y : YearReport} (h : ∀ c ∈ y.albums, c.Fits) :
    Steps YearFields.readEntry {} (yearEntries y) ⟨some y.year, some y.albums⟩ := by
  have halbums := readsBack_sequence fun c hc => readsBack_album (h c hc)
  have hyear (rest) (hrest : Delimited rest) : YearFields.readEntry {} "year"
      (':' :: (quote y.year ++ rest)) = .ok ({ year := some y.year }, rest) :=
    readField_none (readsBack_quote y.year) "year" _ hrest
  refine .cons hyear (.cons ?_ .nil)
  intro rest hrest
  exact readField_none halbums "albums" _ hrest

theorem readsBack_year {y : YearReport} (h : ∀ c ∈ y.albums, c.Fits) :
    ReadsBack readYear (writeYear y) y where
  begins := begins_writeMap (yearEntries y)
  reads rest _ := by
    have htext : writeYear y ++ rest =
        '{' :: (Text.joinAll ',' ((yearEntries y).map writeField) ++ '}' :: rest) :=
      writeMap_append (yearEntries y) rest
    rw [htext, readYear, skipBlank_cons (by decide)]
    simp only [(steps_year h).readEntries rest]
    rfl

/-! ## Reports -/

/-- A written report is read as that report. -/
theorem decode_encode {r : Report} (h : ∀ c ∈ r.albums, c.Fits) : decode r.encode = .ok r := by
  have hyears : ReadsBack (readSequence readYear) (writeSequence (r.years.map writeYear)) r.years :=
    readsBack_sequence fun y hy => readsBack_year fun c hc =>
      h c (List.mem_flatMap.2 ⟨y, hy, hc⟩)
  unfold decode encode
  rw [readAll_written hyears]
  rfl

/-- A format wraps its own text around the JSON text of a report. -/
def wrap (format : OutputFormat) (json : String) : String :=
  match format with
  | .script varName => "var " ++ varName ++ "=" ++ json ++ ";"
  | .json => json

theorem render_eq_wrap (r : Report) (format : OutputFormat) :
    r.render format = wrap format r.encode := by
  cases format <;> rfl

end Report

/-! ## Accepted formats -/

namespace Config

variable {fs : FileSystem} {c valid : Config}

/-- A configuration is accepted with canonical roots and nothing else changed. -/
theorem validate_eq_ok_iff : c.validate fs = .ok valid ↔
    ∃ source dest, canonicalRoot fs c.source = .ok source ∧ canonicalRoot fs c.dest = .ok dest ∧
      checkFormat c.format = .ok () ∧ valid = { c with source, dest } := by
  unfold validate
  cases canonicalRoot fs c.source with
  | error f => simp [bind, Except.bind]
  | ok source =>
    cases canonicalRoot fs c.dest with
    | error f => simp [bind, Except.bind]
    | ok dest =>
      cases checkFormat c.format with
      | error f => simp [bind, Except.bind]
      | ok _ => simp [bind, Except.bind, pure, Except.pure, eq_comm]

/-- Whether some configuration with the format is accepted. -/
def Accepts (format : OutputFormat) : Prop :=
  ∃ (fs : FileSystem) (c valid : Config), c.validate fs = .ok valid ∧ valid.format = format

theorem Accepts.isIdentifier {name : String} (h : Accepts (.script name)) :
    isIdentifier name = true := by
  obtain ⟨fs, c, valid, hvalid, hformat⟩ := h
  obtain ⟨source, dest, -, -, hcheck, rfl⟩ := validate_eq_ok_iff.1 hvalid
  have hname : checkFormat (.script name) = .ok () := hformat ▸ hcheck
  unfold checkFormat at hname
  simp only at hname
  by_contra hnot
  rw [if_neg hnot] at hname
  cases hname

theorem equals_not_mem_of_isIdentifier {name : String} (h : isIdentifier name = true) :
    '=' ∉ name.toList := by
  have hstart : isIdentifierStart '=' = false := by decide
  have hrest : isIdentifierRest '=' = false := by decide
  intro hmem
  unfold isIdentifier at h
  split at h
  · cases h
  · rename_i first rest hname
    rw [Bool.and_eq_true, List.all_eq_true] at h
    rw [hname] at hmem
    rcases List.mem_cons.1 hmem with rfl | hmem
    · rw [hstart] at h
      cases h.1
    · have := h.2 '=' hmem
      rw [hrest] at this
      cases this

end Config

/-! ## Scripts -/

namespace Report

/-- The variable and the JSON text in a script: what stands behind `var ` and before the first `=`,
and what stands behind it without the last character. -/
def cutScript (text : String) : String × String :=
  let declared := text.toList.drop 4
  (String.ofList (declared.takeWhile (· ≠ '=')),
    String.ofList (declared.dropWhile (· ≠ '=')).tail.dropLast)

theorem toList_render_script (r : Report) (name : String) :
    (r.render (.script name)).toList =
      "var ".toList ++ (name.toList ++ '=' :: (r.encode.toList ++ [';'])) := by
  simp [render]

theorem head?_encode (r : Report) : r.encode.toList.head? = some '[' := by
  simp [encode, writeSequence]

section Cut

variable {name : String} (h : Config.isIdentifier name = true) (r : Report)

include h

/-- The first `=` of a script ends its variable. -/
theorem takeWhile_render :
    (r.render (.script name)).toList.takeWhile (· ≠ '=') = "var ".toList ++ name.toList := by
  have hname : ∀ c ∈ "var ".toList ++ name.toList, decide (c ≠ '=') = true := by
    have hvar : "var ".toList.all (· ≠ '=') = true := by decide
    rw [List.forall_mem_append]
    exact ⟨List.all_eq_true.1 hvar, fun c hc =>
      decide_eq_true fun heq => Config.equals_not_mem_of_isIdentifier h (heq ▸ hc)⟩
  rw [toList_render_script, ← List.append_assoc, List.takeWhile_append_of_pos hname]
  simp

theorem cutScript_render : cutScript (r.render (.script name)) = (name, r.encode) := by
  have hname : ∀ c ∈ name.toList, decide (c ≠ '=') = true := fun c hc =>
    decide_eq_true fun heq => Config.equals_not_mem_of_isIdentifier h (heq ▸ hc)
  have hdeclared : (r.render (.script name)).toList.drop 4 =
      name.toList ++ '=' :: (r.encode.toList ++ [';']) := by
    rw [toList_render_script]
    rfl
  unfold cutScript
  simp only [hdeclared]
  rw [List.takeWhile_append_of_pos hname, List.dropWhile_append_of_pos hname]
  simp

end Cut

/-- The JSON text of a report reads back as the report.  A script of an accepted variable begins
with `var `, has its first `=` behind the variable and a semicolon at its end, and cut there it
gives the variable and the JSON text.  So reports that are written alike in accepted formats are
equal, and so are their formats. -/
theorem render_unambiguous {r : Report} (h : ∀ c ∈ r.albums, c.Fits) :
    decode (r.render .json) = .ok r ∧
      (∀ name, Config.Accepts (.script name) →
        "var ".toList <+: (r.render (.script name)).toList ∧
          (r.render (.script name)).toList.takeWhile (· ≠ '=') = "var ".toList ++ name.toList ∧
          (r.render (.script name)).toList.getLast? = some ';' ∧
          cutScript (r.render (.script name)) = (name, r.render .json)) ∧
      ∀ (r₂ : Report) (format format₂ : OutputFormat), (∀ c ∈ r₂.albums, c.Fits) →
        Config.Accepts format → Config.Accepts format₂ → r.render format = r₂.render format₂ →
          format = format₂ ∧ r = r₂ := by
  have hencode {r₂ : Report} (h₂ : ∀ c ∈ r₂.albums, c.Fits) (heq : r.encode = r₂.encode) :
      r = r₂ := by
    have hread := decode_encode h
    rw [heq, decode_encode h₂] at hread
    exact (Except.ok.inj hread).symm
  -- a script and a JSON text begin differently
  have hdiffer (r r₂ : Report) (name : String) : r.render (.script name) ≠ r₂.render .json := by
    intro heq
    have hhead := congrArg (fun text => text.toList.head?) heq
    simp only [toList_render_script] at hhead
    rw [show r₂.render .json = r₂.encode from rfl, head?_encode] at hhead
    cases hhead
  refine ⟨decode_encode h, fun name hname => ?_, ?_⟩
  · refine ⟨?_, takeWhile_render hname.isIdentifier r, ?_, cutScript_render hname.isIdentifier r⟩
    · rw [toList_render_script]
      exact List.prefix_append _ _
    · rw [toList_render_script]
      simp [List.getLast?_append, List.getLast?_cons]
  · intro r₂ format format₂ h₂ hformat hformat₂ heq
    cases format with
    | json =>
      cases format₂ with
      | json => exact ⟨rfl, hencode h₂ heq⟩
      | script name => exact absurd heq.symm (hdiffer r₂ r name)
    | script name =>
      cases format₂ with
      | json => exact absurd heq (hdiffer r r₂ name)
      | script name₂ =>
        have hcut := cutScript_render hformat.isIdentifier r
        rw [heq, cutScript_render hformat₂.isIdentifier r₂] at hcut
        obtain ⟨hname, hjson⟩ := Prod.mk.inj hcut
        exact ⟨by rw [hname], hencode h₂ hjson.symm⟩

/-- A configuration for a script, with its roots spelt canonically. -/
def scripted : Config :=
  ⟨.ofString "/raws", .ofString "/raws", .ofString "counts.json", .ofString "data.js",
    .script "data"⟩

/-- A report of a year and an album that are named like parts of a script. -/
def misleading : Report :=
  ⟨[⟨"var ", [⟨"=\"];", 0xFFFFFFFFFFFFFFFF, 1, 2⟩]⟩, ⟨"", []⟩]⟩

theorem render_unambiguous_misleading :
    (∀ c ∈ misleading.albums, c.Fits) ∧ decode (misleading.render .json) = .ok misleading ∧
      cutScript (misleading.render (.script "data")) = ("data", misleading.render .json) := by
  have hfits : ∀ c ∈ misleading.albums, c.Fits := by
    intro c hc
    obtain rfl := List.mem_singleton.1 hc
    constructor <;> decide
  have hname : Config.Accepts (.script "data") := by
    refine ⟨FileSystem.ofPaths ["/raws"] [], scripted, scripted, ?_, rfl⟩
    decide +kernel
  obtain ⟨hread, hcut, -⟩ := render_unambiguous hfits
  exact ⟨hfits, hread, (hcut "data" hname).2.2.2⟩

end Report

end PhotoTally
