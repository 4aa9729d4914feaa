import PhotoTally.Report.Basic

/-!
# The summary of a report

One line for each year and each album, a rule, and two lines of totals.  Columns are padded to a
least width, counted in characters; a longer entry is written in full.
-/

namespace PhotoTally

namespace Text

/-- The text with blanks behind it up to a width. -/
def padEnd (width : Nat) (s : List Char) : List Char :=
  s ++ List.replicate (width - s.length) ' '

/-- The text with blanks before it up to a width. -/
def padStart (width : Nat) (s : List Char) : List Char :=
  List.replicate (width - s.length) ' ' ++ s

/-- The line between a listing and its totals. -/
def rule : List Char := List.replicate 33 '─'

end Text

namespace Report

/-- A count in decimal digits. -/
def digits (n : Nat) : List Char := Nat.toDigits 10 n

/-- The line of an album: a tick if it is complete, its name, and its counts. -/
def albumLine (c : AlbumCounts) : List Char :=
  [' ', ' ', if c.isComplete then '✓' else ' ', ' '] ++ Text.padEnd 32 c.album.toList ++
    ' ' :: Text.padStart 5 (digits c.edited) ++ '/' :: Text.padEnd 5 (digits c.deleted) ++
    '/' :: Text.padEnd 5 (digits c.total)

/-- The lines of a year. -/
def yearLines (y : YearReport) : List (List Char) := y.year.toList :: y.albums.map albumLine

/-- The lines below the listing. -/
def totalLines (t : Totals) : List (List Char) :=
  [Text.rule,
    digits t.albums ++ " albums (".toList ++ digits t.complete ++ " complete)".toList,
    "Edited/deleted/total: ".toList ++ digits t.edited ++ '/' :: digits t.deleted ++
      '/' :: digits t.total]

/-- The lines of the summary. -/
def summaryLines (r : Report) : List (List Char) :=
  r.years.flatMap yearLines ++ totalLines r.totals

/-- The summary, each line with a line feed behind it. -/
def summary (r : Report) : String :=
  String.ofList (r.summaryLines.flatMap fun line => line ++ ['\n'])

end Report

end PhotoTally
