import PhotoTally.Proofs.FileSystem.Below
import PhotoTally.Proofs.Text.Ascii

/-!
# Where a file's extension begins

A raw file is told by what stands behind the last dot of its name, as text; its base name is what
stands before the last dot of the name as it is on disk.  Both cut a name at the same dot
(`isRaw_iff`, `baseName?_append`), but for a name that has only an extension and keeps it
(`baseName?_of_leading_dot`).
-/

namespace PhotoTally

namespace Path

/-! ## Names in bytes -/

theorem stemOf_append {s e : List UInt8} (hs : s ≠ []) (he : dot ∉ e)
    (hup : s ++ dot :: e ≠ [dot, dot]) : stemOf (s ++ dot :: e) = s := by
  have hcut : Text.splitLast dot (s ++ dot :: e) = some (s, e) :=
    Text.splitLast_eq_some_iff.2 ⟨rfl, he⟩
  simp [stemOf, hcut, hs, hup]

/-- A dot at the start begins no extension. -/
theorem stemOf_leading_dot {e : List UInt8} (he : dot ∉ e) : stemOf (dot :: e) = dot :: e := by
  have hcut : Text.splitLast dot (dot :: e) = some ([], e) :=
    Text.splitLast_eq_some_iff.2 ⟨rfl, he⟩
  simp [stemOf, hcut]

theorem stem?_of_name {name : List UInt8} (hslash : slash ∉ name) (hidle : isIdle name = false)
    (hup : name ≠ [dot, dot]) : stem? ⟨name⟩ = some (stemOf name) := by
  have hown : segments ⟨name⟩ = [] ++ [name] := Text.splitAll_of_not_mem hslash
  have hlast : (dropIdle [name]).getLast? = some name := by
    rw [← List.nil_append [name], dropIdle_concat hidle, List.getLast?_concat]
  simp [stem?, fileName?, hown, hlast, hup]

end Path

namespace Photo

variable {n s e ext : String}

/-! ## Raw extensions -/

/-- The extensions of raw files, character by character. -/
def rawLetters : List (List Char) := [['n', 'e', 'f'], ['c', 'r', '2'], ['d', 'n', 'g']]

/-- Whether a text is `nef`, `cr2` or `dng`, each character as it is or as its capital. -/
def IsRawExtension (ext : String) : Prop :=
  ∃ small ∈ rawLetters, List.Forall₂ (fun c d => c = d ∨ c = d.toUpper) ext.toList small

theorem isRawExtension_iff : IsRawExtension ext ↔ Text.lowerCase ext.toList ∈ rawExtensions := by
  have hsmall : ∀ small ∈ rawLetters, ∀ d ∈ small,
      Text.IsAscii d ∧ d ≠ '\x00' ∧ d ≠ 'k' ∧ d.isUpper = false := by
    simp [rawLetters, Text.IsAscii, Char.isUpper]
  have hletters : rawExtensions = rawLetters := by simp [rawExtensions, rawLetters]
  rw [hletters]
  constructor
  · rintro ⟨small, hmem, hall⟩
    rwa [(Text.lowerCase_eq_iff (hsmall small hmem)).2 hall]
  · intro hmem
    exact ⟨_, hmem, (Text.lowerCase_eq_iff (hsmall _ hmem)).1 rfl⟩

theorem IsRawExtension.spelling (h : IsRawExtension ext) :
    ext.toList.length = 3 ∧ ∀ c ∈ ext.toList, Text.IsAscii c ∧ c ≠ '.' ∧ c ≠ '/' := by
  obtain ⟨small, hmem, hall⟩ := h
  have hcase : ∀ small ∈ rawLetters, small.length = 3 ∧ ∀ d ∈ small,
      (Text.IsAscii d ∧ d ≠ '.' ∧ d ≠ '/') ∧
        Text.IsAscii d.toUpper ∧ d.toUpper ≠ '.' ∧ d.toUpper ≠ '/' := by
    simp [rawLetters, Text.IsAscii]
  obtain ⟨hlength, hchars⟩ := hcase small hmem
  refine ⟨hall.length_eq.trans hlength, fun c hc => ?_⟩
  obtain ⟨i, hi, rfl⟩ := List.getElem_of_mem hc
  have hi' : i < small.length := hall.length_eq ▸ hi
  obtain ⟨hsmall, hcapital⟩ := hchars _ (List.getElem_mem hi')
  have hsame : ext.toList[i] = small[i] ∨ ext.toList[i] = small[i].toUpper :=
    hall.get hi hi'
  rcases hsame with h | h
  · rwa [h]
  · rwa [h]

/-- A raw file's name ends in a dot and one of the extensions. -/
theorem isRaw_iff : isRaw n = true ↔ ∃ stem ext, n = stem ++ "." ++ ext ∧ IsRawExtension ext := by
  have hspelt (stem ext : String) :
      n = stem ++ "." ++ ext ↔ n.toList = stem.toList ++ '.' :: ext.toList := by
    rw [← String.toList_inj]
    simp
  unfold isRaw
  constructor
  · intro h
    split at h
    · rename_i before extension hcut
      obtain ⟨hn, -⟩ := Text.splitLast_eq_some_iff.1 hcut
      refine ⟨String.ofList before, String.ofList extension, (hspelt _ _).2 (by simpa using hn), ?_⟩
      rw [isRawExtension_iff]
      simpa using h
    · cases h
  · rintro ⟨stem, ext, hn, hext⟩
    have hdot : '.' ∉ ext.toList := fun hmem => (hext.spelling.2 _ hmem).2.1 rfl
    rw [Text.splitLast_eq_some_iff.2 ⟨(hspelt _ _).1 hn, hdot⟩]
    simpa using isRawExtension_iff.1 hext

/-! ## Base names -/

/-- The bytes of a dot between two texts. -/
theorem bytes_dotted (s e : String) :
    Text.bytes (s ++ "." ++ e) = Text.bytes s ++ Path.dot :: Text.bytes e := by
  rw [Text.bytes_append, Text.bytes_append, List.append_assoc]
  rfl

theorem slash_not_mem_dotted_iff {s e : String} :
    '/' ∉ (s ++ "." ++ e).toList ↔ '/' ∉ s.toList ∧ '/' ∉ e.toList := by
  simp

theorem dot_not_mem_bytes (he : '.' ∉ e.toList) : Path.dot ∉ Text.bytes e :=
  fun h => he ((Text.mem_bytes_iff (d := '.') (by decide)).1 h)

theorem slash_not_mem_bytes (hn : '/' ∉ n.toList) : Path.slash ∉ Text.bytes n :=
  fun h => hn ((Text.mem_bytes_iff (d := '/') (by decide)).1 h)

/-- The base name of a file is what its name's stem spells. -/
theorem baseName?_of_name {name : List UInt8} (hslash : Path.slash ∉ name)
    (hidle : Path.isIdle name = false) (hup : name ≠ [Path.dot, Path.dot]) :
    baseName? ⟨name⟩ = Text.ofBytes? (Path.stemOf name) := by
  rw [baseName?, Path.stem?_of_name hslash hidle hup, Option.bind_some]

/-- The base name is what stands before the last dot. -/
theorem baseName?_append (hs : s ≠ "") (he : '.' ∉ e.toList) (hslash : '/' ∉ s.toList)
    (hslash' : '/' ∉ e.toList) (hup : s ++ "." ++ e ≠ "..") :
    baseName? (.ofString (s ++ "." ++ e)) = some s := by
  have hfront : Text.bytes s ≠ [] := fun h => hs (Text.bytes_injective h)
  have hdot := dot_not_mem_bytes he
  have hups : Text.bytes s ++ Path.dot :: Text.bytes e ≠ [Path.dot, Path.dot] := by
    rw [← bytes_dotted]
    exact fun h => hup (Text.bytes_injective h)
  have hwhole : Path.slash ∉ Text.bytes s ++ Path.dot :: Text.bytes e := by
    rw [List.mem_append, List.mem_cons]
    rintro (h | h | h)
    · exact slash_not_mem_bytes hslash h
    · exact absurd h (by decide)
    · exact slash_not_mem_bytes hslash' h
  have hidle : Path.isIdle (Text.bytes s ++ Path.dot :: Text.bytes e) = false := by
    simp [Path.isIdle, hfront, List.append_eq_singleton_iff]
  rw [Path.ofString, bytes_dotted, baseName?_of_name hwhole hidle hups,
    Path.stemOf_append hfront hdot hups, Text.ofBytes?_bytes]

/-- A name of a dot and an extension alone is its own base name. -/
theorem baseName?_of_leading_dot (he : '.' ∉ e.toList) (hslash : '/' ∉ e.toList) (hne : e ≠ "") :
    baseName? (.ofString ("." ++ e)) = some ("." ++ e) := by
  have hrest : Text.bytes e ≠ [] := fun h => hne (Text.bytes_injective h)
  have hdot := dot_not_mem_bytes he
  have hbytes : Text.bytes ("." ++ e) = Path.dot :: Text.bytes e := Text.bytes_append "." e
  have hwhole : Path.slash ∉ Path.dot :: Text.bytes e := by
    rw [List.mem_cons]
    rintro (h | h)
    · exact absurd h (by decide)
    · exact slash_not_mem_bytes hslash h
  have hup : Path.dot :: Text.bytes e ≠ [Path.dot, Path.dot] := by
    intro h
    rw [(List.cons.inj h).2] at hdot
    exact hdot (List.mem_singleton_self _)
  have hidle : Path.isIdle (Path.dot :: Text.bytes e) = false := by simp [Path.isIdle, hrest]
  rw [Path.ofString, hbytes, baseName?_of_name hwhole hidle hup, Path.stemOf_leading_dot hdot,
    ← hbytes, Text.ofBytes?_bytes]

/-- A file goes by the same base name in every folder. -/
theorem baseName?_in_folder (folder : Path) {name : EntryName} (h : name.text? = some n) :
    baseName? (folder.join ⟨name.bytes⟩) = baseName? (.ofString n) := by
  rw [Path.baseName?_join, Path.ofString, Text.bytes_of_ofBytes? h]

theorem not_mem_toList_of_text? {name : EntryName} (h : name.text? = some n) :
    '/' ∉ n.toList ∧ n ≠ ".." := by
  have hbytes : Text.bytes n = name.bytes := Text.bytes_of_ofBytes? h
  constructor
  · intro hslash
    have := (Text.mem_bytes_iff (d := '/') (by decide)).2 hslash
    rw [hbytes] at this
    exact FileSystem.slash_not_mem_bytes name this
  · rintro rfl
    exact name.valid.2.2.2.2.2 hbytes.symm

/-! ## Agreement -/

/-- A raw file is known by `nef`, `cr2` or `dng` behind the last dot of its name, in any mix of
cases and in no other letters; its base name is the name without dot and extension, unless it is
nothing else.  Whatever stands behind the last dot, the base name is what stands before it, so a raw
file and the pictures made from it have the same one in whichever folders they are. -/
theorem extensions_agree :
    (∀ n, isRaw n = true ↔ ∃ stem ext, n = stem ++ "." ++ ext ∧ IsRawExtension ext) ∧
    (∀ ext, IsRawExtension ext → ∀ c ∈ ext.toList, Text.IsAscii c) ∧
    (∀ n, '/' ∉ n.toList → isRaw n = true →
      (4 < (Text.bytes n).length → ∃ base, baseName? (.ofString n) = some base ∧
        Text.bytes base = (Text.bytes n).take ((Text.bytes n).length - 4)) ∧
      ((Text.bytes n).length ≤ 4 → baseName? (.ofString n) = some n)) ∧
    (∀ s e, s ≠ "" → '.' ∉ e.toList → '/' ∉ s.toList → '/' ∉ e.toList → s ++ "." ++ e ≠ ".." →
      baseName? (.ofString (s ++ "." ++ e)) = some s) ∧
    ∀ (folder : Path) (file : EntryName) s e, s ≠ "" → '.' ∉ e.toList →
      file.text? = some (s ++ "." ++ e) → baseName? (folder.join ⟨file.bytes⟩) = some s := by
  refine ⟨fun n => isRaw_iff, fun ext hext c hc => (hext.spelling.2 c hc).1, ?_,
    fun s e hs he hslash hslash' hup => baseName?_append hs he hslash hslash' hup, ?_⟩
  · intro n hslash hraw
    obtain ⟨stem, ext, rfl, hext⟩ := isRaw_iff.1 hraw
    obtain ⟨hlength, hchars⟩ := hext.spelling
    obtain ⟨hslash, hslash'⟩ := slash_not_mem_dotted_iff.1 hslash
    have hdot : '.' ∉ ext.toList := fun h => (hchars _ h).2.1 rfl
    have hbytes : (Text.bytes ext).length = 3 := by
      rw [Text.length_bytes fun c hc => (hchars c hc).1, hlength]
    have hwhole : (Text.bytes (stem ++ "." ++ ext)).length = (Text.bytes stem).length + 4 := by
      rw [bytes_dotted, List.length_append, List.length_cons, hbytes]
    rw [hwhole]
    constructor
    · intro hlong
      have hstem : stem ≠ "" := by
        rintro rfl
        exact absurd hlong (by decide)
      have hup : stem ++ "." ++ ext ≠ ".." := by
        intro h
        rw [h] at hwhole
        exact absurd (Nat.le_of_add_left_le hwhole.ge) (by decide)
      refine ⟨stem, baseName?_append hstem hdot hslash hslash' hup, ?_⟩
      rw [bytes_dotted, Nat.add_sub_cancel, List.take_left]
    · intro hshort
      have hnil : Text.bytes stem = [] := List.length_eq_zero_iff.1 (by omega)
      obtain rfl : stem = "" := Text.bytes_injective hnil
      have hne : ext ≠ "" := by
        rintro rfl
        exact absurd hlength (by decide)
      rw [String.empty_append]
      exact baseName?_of_leading_dot hdot hslash' hne
  · intro folder file s e hs he htext
    obtain ⟨hslash, hup⟩ := not_mem_toList_of_text? htext
    obtain ⟨hslash, hslash'⟩ := slash_not_mem_dotted_iff.1 hslash
    rw [baseName?_in_folder folder htext, baseName?_append hs he hslash hslash' hup]

/-- The name of a picture with a dot in its base name. -/
def panorama : EntryName := ⟨Text.bytes "pano.tif.jpg", by decide⟩

theorem extensions_agree_panorama :
    isRaw "pano.tif.NeF" = true ∧ '/' ∉ "pano.tif.NeF".toList ∧
      (∃ base, baseName? (.ofString "pano.tif.NeF") = some base ∧
        Text.bytes base = (Text.bytes "pano.tif.NeF").take 8) ∧
      baseName? (.ofString ("pano.tif" ++ "." ++ "NeF")) = some "pano.tif" ∧
      panorama.text? = some ("pano.tif" ++ "." ++ "jpg") ∧
      baseName? ((Path.ofString "/edits/2023").join ⟨panorama.bytes⟩) = some "pano.tif" ∧
      isRaw ".nef" = true ∧ baseName? (.ofString ".nef") = some ".nef" := by
  obtain ⟨-, -, hbase, hcut, hfolder⟩ := extensions_agree
  have hraw : isRaw "pano.tif.NeF" = true ∧ isRaw ".nef" = true := by decide +kernel
  have htext : panorama.text? = some ("pano.tif" ++ "." ++ "jpg") := by decide +kernel
  refine ⟨hraw.1, by simp, (hbase _ (by simp) hraw.1).1 (by decide +kernel), ?_, htext, ?_, hraw.2,
    (hbase _ (by simp) hraw.2).2 (by decide +kernel)⟩
  · exact hcut _ _ (by simp) (by simp) (by simp) (by simp) (by simp)
  · exact hfolder _ _ _ _ (by simp) (by simp) htext

end Photo

end PhotoTally
