import PhotoTally.Program
import PhotoTally.Proofs.Ledger.File
import PhotoTally.Proofs.Reconcile.Accounting

/-!
# What a status lists

`Listing.text` is the text for a table of albums with file counts, with the totals taken from the
table.  The listing of a ledger is this text for the table of the ledger (`statusText_eq`), which
has each recorded album once, in ascending order, with the number of its names
(`isAscending_listing`, `mem_rows_listing`).  A status on a file with a ledger's text prints it, and
nothing else happens (`run_status`).
-/

namespace PhotoTally

/-- A table of the albums of each year, each with a file count. -/
structure Listing where
  years : List (String × List (String × Nat))

namespace Listing

/-- Year, album and file count of each line. -/
def rows (s : Listing) : List (String × String × Nat) :=
  s.years.flatMap fun y => y.2.map fun a => (y.1, a.1, a.2)

def albumCount (s : Listing) : Nat := s.rows.length

def fileCount (s : Listing) : Nat := (s.rows.map fun row => row.2.2).sum

/-- Whether the years ascend byte by byte, and in each year the albums. -/
structure IsAscending (s : Listing) : Prop where
  years : (s.years.map (·.1)).Pairwise fun a b => Text.bytes a < Text.bytes b
  albums : ∀ y ∈ s.years, (y.2.map (·.1)).Pairwise fun a b => Text.bytes a < Text.bytes b

/-- The line of an album. -/
def albumLine (album : String) (files : Nat) : List Char :=
  [' ', ' '] ++ Text.padEnd 32 album.toList ++ ' ' ::
    Text.padStart 6 (Nat.toDigits 10 files) ++ " files".toList

/-- The lines of a year. -/
def yearLines (y : String × List (String × Nat)) : List (List Char) :=
  y.1.toList :: y.2.map fun a => albumLine a.1 a.2

/-- The line `N albums, M files`. -/
def totalLine (s : Listing) : List Char :=
  "Total: ".toList ++ Nat.toDigits 10 s.albumCount ++ " albums, ".toList ++
    Nat.toDigits 10 s.fileCount ++ " files".toList

/-- The table in print, between the path of the ledger and the totals. -/
def text (path : Path) (s : Listing) : String :=
  let lines := ("Ledger: ".toList ++ path.display.toList) :: Text.rule ::
    s.years.flatMap yearLines ++ [Text.rule, s.totalLine]
  String.ofList (lines.flatMap fun line => line ++ ['\n'])

end Listing

namespace Ledger

variable {l : Ledger}

/-! ## The table of a ledger -/

/-- The recorded albums with the numbers of their names. -/
def listing (l : Ledger) : Listing :=
  ⟨l.years.entries.map fun e => (e.1, e.2.entries.map fun a => (a.1, a.2.length))⟩

theorem rows_listing (l : Ledger) :
    l.listing.rows = l.albums.map fun k => (k.1, k.2, (l.names k.1 k.2).length) := by
  unfold Listing.rows listing albums TextMap.keys
  rw [List.flatMap_map, List.map_flatMap]
  refine List.flatMap_congr fun e he => ?_
  simp only [List.map_map]
  refine List.map_congr_left fun a ha => ?_
  have hyear : l.years.get? e.1 = some e.2 := TextMap.get?_eq_some_iff.2 he
  have halbum : e.2.get? a.1 = some a.2 := TextMap.get?_eq_some_iff.2 ha
  simp [names, album?, hyear, halbum]

theorem albumCount_listing (l : Ledger) : l.listing.albumCount = l.albumCount := by
  unfold Listing.albumCount albumCount
  rw [rows_listing, lists_eq, List.length_map, List.length_map]

theorem fileCount_listing (l : Ledger) : l.listing.fileCount = l.fileCount := by
  unfold Listing.fileCount
  rw [rows_listing, fileCount_eq, List.map_map]
  rfl

/-- The table has the recorded albums, each with the number of its names. -/
theorem mem_rows_listing {year album : String} {n : Nat} :
    (year, album, n) ∈ l.listing.rows ↔
      ∃ names, l.album? year album = some names ∧ names.length = n := by
  rw [rows_listing, List.mem_map]
  constructor
  · rintro ⟨⟨y, a⟩, hmem, heq⟩
    obtain ⟨rfl, rfl, rfl⟩ : y = year ∧ a = album ∧ (l.names y a).length = n := by simpa using heq
    obtain ⟨names, hnames⟩ := mem_albums_iff.1 hmem
    refine ⟨names, hnames, ?_⟩
    simp [Ledger.names, hnames]
  · rintro ⟨names, hnames, rfl⟩
    refine ⟨(year, album), mem_albums_iff.2 ⟨names, hnames⟩, ?_⟩
    simp [Ledger.names, hnames]

theorem isAscending_listing (l : Ledger) : l.listing.IsAscending where
  years := by
    rw [listing, List.map_map]
    exact l.years.keys_ascending.imp Text.bytes_lt_bytes
  albums := by
    intro y hy
    obtain ⟨e, -, rfl⟩ := List.mem_map.1 hy
    rw [List.map_map]
    exact e.2.keys_ascending.imp Text.bytes_lt_bytes

end Ledger

namespace Program

variable {fs : FileSystem} {path : Path} {l : Ledger}

/-! ## The status in print -/

/-- A ledger with a year is listed by its table. -/
theorem statusText_eq (path : Path) (h : l.isEmpty = false) :
    statusText path l = l.listing.text path := by
  have hyears : l.listing.years.flatMap Listing.yearLines =
      l.years.entries.flatMap fun e => statusYear e.1 e.2 := by
    rw [Ledger.listing, List.flatMap_map]
    refine List.flatMap_congr fun e _ => ?_
    show e.1.toList :: List.map _ (List.map _ e.2.entries) = e.1.toList :: e.2.entries.map _
    rw [List.map_map]
    rfl
  unfold statusText Listing.text Listing.totalLine
  rw [if_neg (by simp [h]), hyears, Ledger.albumCount_listing, Ledger.fileCount_listing]

/-- A status on a file with the text of a ledger without repeated names prints it, warns of nothing,
and leaves everything as it is. -/
theorem run_status {j : Invocation} (hcommand : j.command = .status path) (hlog : j.log = false)
    (hread : fs.readText path = .ok l.encode) (hfree : l.IsDuplicateFree) (faults : Run.Faults) :
    run fs j faults = ⟨0, statusText path l, "", fs⟩ := by
  have hload : Ledger.load fs path =
      ⟨[.ledgerLoaded path l.albumCount l.fileCount], .ok l⟩ := by
    unfold Ledger.load Ledger.ofText
    simp only [hread, Ledger.decode_encode, hfree.dedup_eq, Nat.sub_self, ne_eq,
      not_true, if_false]
    rfl
  unfold run
  rw [hlog, if_neg (by simp)]
  unfold carryOut
  rw [hcommand]
  simp only [hload]
  rfl

end Program

end PhotoTally
