import PhotoTally.Report.Summary
import PhotoTally.Proofs.Path

/-!
# What a summary tells

The lines of a summary are those of its years and albums, in order, and three more.  Whatever an
album is called and however wide its counts are, they are the last three numbers of its line
(`rowCounts_albumLine`), so the lines tell the counts, and the numbers below them add up
(`addsUp_printout`).  Where the counts are the same, equal lines have the same name in front of
them, up to blanks at its end (`alike_of_albumLine_eq`).  So a summary tells its report, up to such
blanks, if it is known how many albums each year has (`summary_unambiguous`).
-/

namespace PhotoTally

namespace Text

variable {s t : List Char}

/-- The numbers in a text: its runs of digits, from left to right. -/
def numbers (s : List Char) : List Nat :=
  ((s.splitOnP fun c => !c.isDigit).filter (· ≠ [])).map fun digits => Nat.ofDigitChars 10 digits 0

/-- A text without the blanks at its end. -/
def trimEnd (s : List Char) : List Char := s.rdropWhile (· = ' ')

/-! ## Numbers -/

/-- A character that is no digit divides the numbers before it from those behind it. -/
theorem numbers_append_cons {c : Char} (h : c.isDigit = false) (s t : List Char) :
    numbers (s ++ c :: t) = numbers s ++ numbers t := by
  unfold numbers
  rw [List.splitOnP_append_cons s t (by simp [h]), List.filter_append, List.map_append]

theorem numbers_cons {c : Char} (h : c.isDigit = false) (t : List Char) :
    numbers (c :: t) = numbers t :=
  numbers_append_cons h [] t

/-- Whether no character of a text is a digit. -/
def isDigitless (s : List Char) : Bool := s.all fun c => !c.isDigit

theorem numbers_append_of_isDigitless (h : isDigitless s = true) (t : List Char) :
    numbers (s ++ t) = numbers t := by
  induction s with
  | nil => rfl
  | cons c s ih =>
    rw [isDigitless, List.all_cons, Bool.and_eq_true, Bool.not_eq_true'] at h
    rw [List.cons_append, numbers_cons h.1, ih h.2]

theorem numbers_of_isDigitless (h : isDigitless s = true) : numbers s = [] := by
  have := numbers_append_of_isDigitless h []
  rwa [List.append_nil] at this

/-- The digits of a number are one run. -/
theorem numbers_toDigits (n : Nat) : numbers (Nat.toDigits 10 n) = [n] := by
  have hdigits : ∀ c ∈ Nat.toDigits 10 n, (!c.isDigit) = false := by
    intro c hc
    simp [Nat.isDigit_of_mem_toDigits (by decide) (by decide) hc]
  unfold numbers
  rw [List.splitOnP_eq_singleton hdigits, List.filter_cons_of_pos (by simp [Nat.toDigits_ne_nil])]
  simp [Nat.ofDigitChars_ten_toDigits]

/-- The digits of a number, some other characters, and a rest. -/
theorem numbers_toDigits_append {word : List Char} (hne : word ≠ [])
    (hword : isDigitless word = true) (n : Nat) (s : List Char) :
    numbers (Nat.toDigits 10 n ++ (word ++ s)) = n :: numbers s := by
  cases word with
  | nil => exact absurd rfl hne
  | cons c word =>
    rw [isDigitless, List.all_cons, Bool.and_eq_true, Bool.not_eq_true'] at hword
    rw [List.cons_append, numbers_append_cons hword.1, numbers_toDigits,
      numbers_append_of_isDigitless hword.2, List.singleton_append]

theorem isDigitless_blanks (n : Nat) : isDigitless (List.replicate n ' ') = true := by
  rw [isDigitless, List.all_replicate]
  cases n <;> rfl

theorem numbers_padStart (width : Nat) (s : List Char) : numbers (padStart width s) = numbers s :=
  numbers_append_of_isDigitless (isDigitless_blanks _) s

theorem numbers_padEnd (width : Nat) (s : List Char) : numbers (padEnd width s) = numbers s := by
  unfold padEnd
  cases width - s.length with
  | zero => rw [List.replicate_zero, List.append_nil]
  | succ n =>
    rw [List.replicate_succ, numbers_append_cons (by decide),
      numbers_of_isDigitless (isDigitless_blanks n), List.append_nil]

/-! ## Padding -/

theorem trimEnd_append_blanks (s : List Char) (n : Nat) :
    trimEnd (s ++ List.replicate n ' ') = trimEnd s := by
  induction n with
  | zero => rw [List.replicate_zero, List.append_nil]
  | succ n ih =>
    rw [List.replicate_succ', ← List.append_assoc]
    unfold trimEnd at ih ⊢
    rw [List.rdropWhile_concat_pos _ _ _ (by simp), ih]

theorem trimEnd_padEnd (width : Nat) (s : List Char) : trimEnd (padEnd width s) = trimEnd s :=
  trimEnd_append_blanks s _

theorem mem_padEnd {c : Char} {width : Nat} (h : c ∈ padEnd width s) : c ∈ s ∨ c = ' ' :=
  (List.mem_append.1 h).imp_right List.eq_of_mem_replicate

theorem mem_padStart {c : Char} {width : Nat} (h : c ∈ padStart width s) : c = ' ' ∨ c ∈ s :=
  (List.mem_append.1 h).imp_left List.eq_of_mem_replicate

/-- Lines without a line feed are what their text is cut into, with nothing behind the last one. -/
theorem splitAll_lines {lines : List (List Char)} (h : ∀ line ∈ lines, '\n' ∉ line) :
    splitAll '\n' (lines.flatMap fun line => line ++ ['\n']) = lines ++ [[]] := by
  induction lines with
  | nil => rfl
  | cons line lines ih =>
    rw [List.forall_mem_cons] at h
    rw [List.flatMap_cons, List.append_assoc, List.singleton_append, splitAll_append_cons h.1,
      ih h.2, List.cons_append]

end Text

open Text

namespace Report

variable {r r₁ r₂ : Report} {c c₁ c₂ : AlbumCounts}

/-! ## The line of an album -/

/-- Whether the line of an album is ticked. -/
def isTicked (row : List Char) : Bool := row[2]? = some '✓'

/-- The last three numbers in the line of an album. -/
def rowCounts (row : List Char) : List Nat := (numbers row).rtake 3

/-- Whether a line shows an album: its tick, its name, and its counts. -/
structure ShowsAlbum (row : List Char) (c : AlbumCounts) : Prop where
  ticked : isTicked row = c.isComplete
  named : c.album.toList <+: row.drop 4
  counted : rowCounts row = [c.edited, c.deleted, c.total]

/-- The part of an album's line behind the name. -/
def albumTail (c : AlbumCounts) : List Char :=
  ' ' :: padStart 5 (digits c.edited) ++ '/' :: padEnd 5 (digits c.deleted) ++
    '/' :: padEnd 5 (digits c.total)

theorem albumLine_eq (c : AlbumCounts) :
    albumLine c = [' ', ' ', if c.isComplete then '✓' else ' ', ' '] ++
      (padEnd 32 c.album.toList ++ albumTail c) := by
  simp [albumLine, albumTail]

theorem numbers_albumTail (c : AlbumCounts) :
    numbers (albumTail c) = [c.edited, c.deleted, c.total] := by
  unfold albumTail digits
  rw [numbers_append_cons (by decide), numbers_append_cons (by decide), numbers_cons (by decide),
    numbers_padStart, numbers_padEnd, numbers_padEnd, numbers_toDigits, numbers_toDigits,
    numbers_toDigits]
  rfl

/-- The counts are the last three numbers of the line, since a blank stands before them. -/
theorem rowCounts_albumLine (c : AlbumCounts) :
    rowCounts (albumLine c) = [c.edited, c.deleted, c.total] := by
  have hmark : isDigitless [' ', ' ', if c.isComplete then '✓' else ' ', ' '] = true := by
    cases c.isComplete <;> rfl
  have htail : numbers (padEnd 32 c.album.toList ++ albumTail c) =
      numbers (padEnd 32 c.album.toList) ++ numbers (albumTail c) := by
    unfold albumTail
    simp only [List.cons_append]
    rw [numbers_append_cons (by decide), numbers_cons (by decide)]
  unfold rowCounts
  rw [albumLine_eq, numbers_append_of_isDigitless hmark, htail, numbers_albumTail]
  simp [List.rtake]

theorem showsAlbum_albumLine (c : AlbumCounts) : ShowsAlbum (albumLine c) c where
  ticked := by
    unfold isTicked albumLine
    cases c.isComplete <;> rfl
  named := by
    rw [albumLine_eq, padEnd, List.append_assoc]
    simp only [List.cons_append, List.nil_append, List.drop_succ_cons, List.drop_zero]
    exact List.prefix_append _ _
  counted := rowCounts_albumLine c

/-- Whether two albums are alike but for blanks behind their names. -/
structure AlbumAlike (c₁ c₂ : AlbumCounts) : Prop where
  name : trimEnd c₁.album.toList = trimEnd c₂.album.toList
  edited : c₁.edited = c₂.edited
  deleted : c₁.deleted = c₂.deleted
  total : c₁.total = c₂.total

/-- The counts can be read off the line, and then the rest of it is the name, padded. -/
theorem alike_of_albumLine_eq (h : albumLine c₁ = albumLine c₂) : AlbumAlike c₁ c₂ := by
  have hcounts : [c₁.edited, c₁.deleted, c₁.total] = [c₂.edited, c₂.deleted, c₂.total] := by
    rw [← rowCounts_albumLine, h, rowCounts_albumLine]
  simp only [List.cons.injEq, and_true] at hcounts
  obtain ⟨hedited, hdeleted, htotal⟩ := hcounts
  have htail : albumTail c₁ = albumTail c₂ := by
    unfold albumTail
    rw [hedited, hdeleted, htotal]
  rw [albumLine_eq, albumLine_eq, htail] at h
  have hname := List.append_cancel_right (List.append_inj_right h rfl)
  refine ⟨?_, hedited, hdeleted, htotal⟩
  rw [← trimEnd_padEnd 32, hname, trimEnd_padEnd]

/-! ## The lines of a report -/

/-- A summary in lines: the line of each year with those of its albums, and three lines below. -/
structure Printout where
  years : List (List Char × List (List Char))
  rule : List Char
  albums : List Char
  counts : List Char

namespace Printout

/-- The lines of all albums. -/
def rows (p : Printout) : List (List Char) := p.years.flatMap (·.2)

/-- All lines, from top to bottom. -/
def lines (p : Printout) : List (List Char) :=
  (p.years.flatMap fun y => y.1 :: y.2) ++ [p.rule, p.albums, p.counts]

/-- The sum of one of the three counts over the lines of all albums. -/
def column (p : Printout) (k : Nat) : Nat :=
  (p.rows.map fun row => (rowCounts row).getD k 0).sum

/-- Whether the lines below give the number of albums and of ticks above, and the sums of the counts
there. -/
structure AddsUp (p : Printout) : Prop where
  albums : numbers p.albums = [p.rows.length, p.rows.countP isTicked]
  counts : numbers p.counts = [p.column 0, p.column 1, p.column 2]

/-- Whether there is a line for each year and each album of a report, in its order. -/
def Shows (p : Printout) (r : Report) : Prop :=
  List.Forall₂ (fun lines y => lines.1 = y.year.toList ∧ List.Forall₂ ShowsAlbum lines.2 y.albums)
    p.years r.years

theorem length_lines (p : Printout) : p.lines.length = p.years.length + p.rows.length + 3 := by
  unfold lines rows
  rw [List.length_append]
  induction p.years with
  | nil => rfl
  | cons y years ih =>
    simp only [List.flatMap_cons, List.length_append, List.length_cons] at ih ⊢
    omega

end Printout

/-- The summary of a report in lines. -/
def printout (r : Report) : Printout where
  years := r.years.map fun y => (y.year.toList, y.albums.map albumLine)
  rule := Text.rule
  albums := digits r.totals.albums ++ " albums (".toList ++ digits r.totals.complete ++
    " complete)".toList
  counts := "Edited/deleted/total: ".toList ++ digits r.totals.edited ++
    '/' :: digits r.totals.deleted ++ '/' :: digits r.totals.total

theorem lines_printout (r : Report) : r.printout.lines = r.summaryLines := by
  unfold Printout.lines summaryLines printout
  rw [List.flatMap_map]
  rfl

theorem rows_printout (r : Report) : r.printout.rows = r.albums.map albumLine := by
  unfold Printout.rows printout albums
  rw [List.flatMap_map, List.map_flatMap]

theorem shows_printout (r : Report) : r.printout.Shows r := by
  unfold Printout.Shows printout
  rw [List.forall₂_map_left_iff]
  refine List.forall₂_same.2 fun y _ => ⟨rfl, ?_⟩
  rw [List.forall₂_map_left_iff]
  exact List.forall₂_same.2 fun c _ => showsAlbum_albumLine c

/-- A column adds up to the sum of that count over the albums. -/
theorem column_printout {k : Nat} {count : AlbumCounts → Nat}
    (h : ∀ c : AlbumCounts, [c.edited, c.deleted, c.total].getD k 0 = count c) (r : Report) :
    r.printout.column k = (r.albums.map count).foldr (· + ·) 0 := by
  unfold Printout.column
  rw [rows_printout, List.map_map]
  have hrow : (fun row => (rowCounts row).getD k 0) ∘ albumLine = count := by
    funext c
    rw [Function.comp_apply, rowCounts_albumLine, h]
  rw [hrow]
  rfl

theorem addsUp_printout (r : Report) : r.printout.AddsUp where
  albums := by
    have hnumbers : numbers r.printout.albums = [r.totals.albums, r.totals.complete] := by
      unfold printout digits
      simp only [List.append_assoc]
      rw [numbers_toDigits_append (by decide) (by decide), ← List.append_nil " complete)".toList,
        numbers_toDigits_append (by decide) (by decide)]
      rfl
    have hticked : isTicked ∘ albumLine = fun c => c.isComplete := by
      funext c
      exact (showsAlbum_albumLine c).ticked
    rw [hnumbers, rows_printout, List.length_map, List.countP_map, hticked]
    rfl
  counts := by
    have hword : isDigitless "Edited/deleted/total: ".toList = true := by decide
    have hnumbers : numbers r.printout.counts =
        [r.totals.edited, r.totals.deleted, r.totals.total] := by
      unfold printout digits
      rw [numbers_append_cons (by decide), numbers_append_cons (by decide),
        numbers_append_of_isDigitless hword, numbers_toDigits, numbers_toDigits, numbers_toDigits]
      rfl
    rw [hnumbers, column_printout (fun _ => rfl), column_printout (fun _ => rfl),
      column_printout (fun _ => rfl)]
    rfl

/-! ## Lines in a text -/

/-- Whether no name in a report has a line feed in it. -/
def HasPlainNames (r : Report) : Prop :=
  ∀ y ∈ r.years, '\n' ∉ y.year.toList ∧ ∀ c ∈ y.albums, '\n' ∉ c.album.toList

theorem newline_not_mem_digits (n : Nat) : '\n' ∉ digits n := by
  intro h
  have := Nat.isDigit_of_mem_toDigits (by decide) (by decide) h
  exact absurd this (by decide)

theorem newline_not_mem_albumLine (h : '\n' ∉ c.album.toList) : '\n' ∉ albumLine c := by
  have hname : '\n' ∉ padEnd 32 c.album.toList := fun hmem =>
    (mem_padEnd hmem).elim h (by decide)
  have hstart (n : Nat) : '\n' ∉ padStart 5 (digits n) := fun hmem =>
    (mem_padStart hmem).elim (by decide) (newline_not_mem_digits n)
  have hend (n : Nat) : '\n' ∉ padEnd 5 (digits n) := fun hmem =>
    (mem_padEnd hmem).elim (newline_not_mem_digits n) (by decide)
  unfold albumLine
  cases c.isComplete <;> simp [hname, hstart, hend]

theorem newline_not_mem_totalLines (t : Totals) : ∀ line ∈ totalLines t, '\n' ∉ line := by
  have hdigits := newline_not_mem_digits
  unfold totalLines Text.rule
  simp [hdigits]

theorem splitAll_summary (h : r.HasPlainNames) :
    splitAll '\n' r.summary.toList = r.printout.lines ++ [[]] := by
  have hlines : ∀ line ∈ r.summaryLines, '\n' ∉ line := by
    intro line hline
    rcases List.mem_append.1 hline with hline | hline
    · obtain ⟨y, hy, hline⟩ := List.mem_flatMap.1 hline
      obtain ⟨hyear, halbums⟩ := h y hy
      rcases List.mem_cons.1 hline with rfl | hline
      · exact hyear
      · obtain ⟨c, hc, rfl⟩ := List.mem_map.1 hline
        exact newline_not_mem_albumLine (halbums c hc)
    · exact newline_not_mem_totalLines _ line hline
  rw [lines_printout, ← splitAll_lines hlines, summary, String.toList_ofList]

/-! ## Reports with the same summary -/

/-- Whether two years have one name, and albums that are alike. -/
def YearAlike (y₁ y₂ : YearReport) : Prop :=
  y₁.year = y₂.year ∧ List.Forall₂ AlbumAlike y₁.albums y₂.albums

theorem alike_of_yearLines_eq {y₁ y₂ : YearReport} (h : yearLines y₁ = yearLines y₂) :
    YearAlike y₁ y₂ := by
  obtain ⟨hyear, halbums⟩ := List.cons.inj h
  refine ⟨String.toList_injective hyear, ?_⟩
  rw [← List.forall₂_eq_eq_eq, List.forall₂_map_left_iff, List.forall₂_map_right_iff] at halbums
  exact halbums.imp fun _ _ => alike_of_albumLine_eq

/-- Lines that go on in any way: each year takes as many of them on either side. -/
theorem alike_of_lines_eq {years₁ years₂ : List YearReport} {rest₁ rest₂ : List (List Char)}
    (hshape : years₁.map (·.albums.length) = years₂.map (·.albums.length))
    (h : years₁.flatMap yearLines ++ rest₁ = years₂.flatMap yearLines ++ rest₂) :
    List.Forall₂ YearAlike years₁ years₂ := by
  induction years₁ generalizing years₂ with
  | nil =>
    obtain rfl := List.map_eq_nil_iff.1 hshape.symm
    exact .nil
  | cons y₁ years₁ ih =>
    cases years₂ with
    | nil => cases hshape
    | cons y₂ years₂ =>
      obtain ⟨hlength, hshape⟩ := List.cons.inj hshape
      rw [List.flatMap_cons, List.flatMap_cons, List.append_assoc, List.append_assoc] at h
      obtain ⟨hyear, hrest⟩ := List.append_inj h (by simp [yearLines, hlength])
      exact .cons (alike_of_yearLines_eq hyear) (ih hshape hrest)

/-- The summary of a report without line feeds in its names has a line for each year and each album,
in the order of the report, and three below, whose numbers are those of the albums and of the ticks
above and the sums of the counts there.  Two such reports with the same summary and as many albums
in each year have the same years and counts, and the same names of albums but for blanks behind
them. -/
theorem summary_unambiguous :
    (∀ r : Report, r.HasPlainNames → ∃ p : Printout,
      splitAll '\n' r.summary.toList = p.lines ++ [[]] ∧
        p.lines.length = r.years.length + r.albums.length + 3 ∧ p.Shows r ∧ p.AddsUp) ∧
    ∀ r₁ r₂ : Report, r₁.HasPlainNames → r₂.HasPlainNames →
      r₁.years.map (·.albums.length) = r₂.years.map (·.albums.length) →
        r₁.summary = r₂.summary → List.Forall₂ YearAlike r₁.years r₂.years := by
  constructor
  · intro r h
    refine ⟨r.printout, splitAll_summary h, ?_, shows_printout r, addsUp_printout r⟩
    rw [Printout.length_lines, rows_printout, List.length_map]
    simp [printout]
  · intro r₁ r₂ h₁ h₂ hshape h
    have hlines : r₁.summaryLines = r₂.summaryLines := by
      rw [← lines_printout, ← lines_printout]
      refine List.append_cancel_right (?_ : _ ++ [[]] = _ ++ [[]])
      rw [← splitAll_summary h₁, h, splitAll_summary h₂]
    exact alike_of_lines_eq hshape hlines

/-- A report with names and counts wider than their columns, names made of what stands between
columns, and a name that blanks may follow. -/
def crowded (blanks : String) : Report :=
  ⟨[⟨"2023", [⟨"Trip" ++ blanks, 123456, 100000, 23456⟩, ⟨"1/2 ✓    3/4    /5", 7, 5, 1⟩]⟩,
    ⟨"  ✓", [⟨"A hundred days on the road, 1 to 100", 0, 0, 0⟩]⟩]⟩

theorem summary_unambiguous_crowded :
    (crowded "").HasPlainNames ∧ (crowded "  ").HasPlainNames ∧
      (crowded "").summary = (crowded "  ").summary ∧ crowded "" ≠ crowded "  " ∧
      List.Forall₂ YearAlike (crowded "").years (crowded "  ").years ∧
      ∃ p : Printout, splitAll '\n' (crowded "").summary.toList = p.lines ++ [[]] ∧
        p.lines.length = 8 ∧ p.AddsUp := by
  have hplain : (crowded "").HasPlainNames ∧ (crowded "  ").HasPlainNames := by
    unfold HasPlainNames
    decide +kernel
  have hsummary : (crowded "").summaryLines = (crowded "  ").summaryLines := by decide +kernel
  have hsame : (crowded "").summary = (crowded "  ").summary := by
    unfold summary
    rw [hsummary]
  obtain ⟨hlegible, halike⟩ := summary_unambiguous
  obtain ⟨p, hlines, hlength, -, hadds⟩ := hlegible _ hplain.1
  exact ⟨hplain.1, hplain.2, hsame, by decide +kernel, halike _ _ hplain.1 hplain.2 rfl hsame, p,
    hlines, hlength, hadds⟩

end Report

end PhotoTally
