import PhotoTally.Proofs.Program.Log
import PhotoTally.Proofs.Program.Status
import PhotoTally.Proofs.Report.Counting
import PhotoTally.Proofs.Report.RoundTrip
import PhotoTally.Proofs.Run.Written

/-!
# What a run leaves for its readers

A run that succeeds leaves a report, a summary in print, and a ledger, and a later status reads the
ledger.  They come from one report and one ledger (`Artefacts`), and the status lists the ledger's
albums, among them all of the report's, with the same counts (`Agrees`).  `run_then_status` says so
for the whole program, with or without a log.  The report is what its path leads to unless it bars
the way to itself (`report_behind_its_path`).
-/

namespace PhotoTally

variable {fs after : FileSystem} {c : Config} {l : Ledger} {r : Report} {path : Path}
  {faults : Run.Faults}

theorem Config.validate_eq_ok {valid : Config} (h : c.validate fs = .ok valid) :
    valid.output = c.output ∧ valid.ledger = c.ledger ∧ valid.format = c.format := by
  obtain ⟨source, dest, -, -, -, rfl⟩ := validate_eq_ok_iff.1 h
  exact ⟨rfl, rfl, rfl⟩

/-! ## Texts -/

theorem toUTF8_ne_empty {s : String} (h : s ≠ "") : s.toUTF8 ≠ .empty := by
  intro hempty
  have htext := Ledger.fromUTF8?_toUTF8 s
  rw [hempty, show ByteArray.empty = "".toUTF8 from rfl, Ledger.fromUTF8?_toUTF8] at htext
  exact h (Option.some.inj htext).symm

theorem Ledger.encode_ne_empty (l : Ledger) : l.encode ≠ "" := by
  intro hempty
  have hdecode := decode_encode l
  rw [hempty] at hdecode
  cases hdecode

theorem Report.render_ne_empty (r : Report) (format : OutputFormat) : r.render format ≠ "" := by
  intro hempty
  have htext := congrArg String.toList hempty
  cases format with
  | script varName => simp [render] at htext
  | json => simp [render, encode, Json.writeSequence] at htext

namespace Run

/-! ## The rows of a run -/

/-- What a run has read gives the rows of its report, each with the names that its ledger has. -/
structure IsAccount (l : Ledger) (r : Report) : Prop where
  free : l.IsDuplicateFree
  rows : ∀ y ∈ r.years, ∀ row ∈ y.albums, ∃ names,
    l.album? y.year row.album = some names ∧ names.length = row.total
  fits : (∀ row ∈ r.albums, row.total < Json.wordBound) → ∀ row ∈ r.albums, row.Fits
  albums_le : r.totals.albums ≤ l.albumCount
  total_le : r.totals.total ≤ l.fileCount

theorem isAccount_of_survey (h : (survey fs c).result = .ok (l, r)) : IsAccount l r := by
  obtain ⟨l₀, hload, hrun⟩ := survey_eq_ok_iff.1 h
  obtain ⟨found, -, rfl⟩ := Ledger.load_eq_ok_iff.1 hload
  have hdescribes := Reconcile.describes_of_run hrun
  refine ⟨?_, fun y hy row hrow => ?_, fun hfit row hrow => ?_,
    (Reconcile.totals_le hrun).2, (Reconcile.totals_le hrun).1⟩
  · exact (Reconcile.grows_of_run hrun).isDuplicateFree (Ledger.isDuplicateFree_dedup found)
  · have hkey : (y.year, row.album) ∈ Reconcile.rowKeys r :=
      List.mem_flatMap.2 ⟨y, hy, List.mem_map_of_mem hrow⟩
    obtain ⟨raw, now, -, hnow, -⟩ :=
      hdescribes.recorded _ _ ((Reconcile.mem_rowKeys hdescribes).1 hkey)
    refine ⟨now, hnow, ?_⟩
    rw [hdescribes.total y hy row hrow, Ledger.names, hnow, Option.getD_some]
  · obtain ⟨y, hy, hmem⟩ := List.mem_flatMap.1 hrow
    obtain ⟨raw, edited, -, -, hcount⟩ := (hdescribes.accounts y hy).counts row hmem
    have htotal := hfit row hrow
    rw [hcount] at htotal ⊢
    exact AlbumCounts.fits_count htotal

/-- The saved ledger is the text of the ledger that the run returns. -/
theorem readText_ledger (htree : fs.IsTree) (hsurvey : (survey fs c).result = .ok (l, r))
    (h : (execute fs c false faults).2.result = .ok r) :
    (execute fs c false faults).1.readText c.ledger = .ok l.encode := by
  obtain ⟨l', hsurvey', hreport, hsave⟩ := exists_parts h
  obtain ⟨rfl, -⟩ : l' = l ∧ r = r := by
    simpa using hsurvey'.symm.trans hsurvey
  obtain ⟨p, q, hwrites⟩ := exists_twoWrites htree hsurvey hreport hsave
  have hlegible := hwrites.legible₁
  rw [(execute_of_parts hsurvey hreport hsave).2, Ledger.readText_save hsave,
    if_neg (not_not.2 hlegible.isDirect), if_neg (not_not.2 hlegible.grants_modeFor)]

end Run

namespace Program

/-! ## A run in the program -/

/-- A program that ends well has carried out its command. -/
theorem conclude_of_exitCode {outcome : Outcome String} (h : (conclude fs outcome).exitCode = 0) :
    ∃ text, outcome.result = .ok text ∧
      conclude fs outcome = ⟨0, eventLines (some .warn) outcome.events ++ text, "", fs⟩ := by
  unfold conclude at *
  cases hresult : outcome.result with
  | ok text => exact ⟨text, rfl, rfl⟩
  | error f =>
    rw [hresult] at h
    cases h

/-- The summary, and the two lines behind it that name the files. -/
def summaryAndPaths (c : Config) (r : Report) : String :=
  r.summary ++ "\nReport written to " ++ c.output.display ++ "\nLedger written to " ++
    c.ledger.display ++ "\n"

theorem runText_eq {valid : Config} (houtput : valid.output = c.output)
    (hledger : valid.ledger = c.ledger) (r : Report) :
    runText valid false r = summaryAndPaths c r := by
  unfold runText summaryAndPaths
  simp only [houtput, hledger, Bool.false_eq_true, if_false]

theorem carryOut_run {text : String}
    (h : (carryOut fs faults (.run c false)).2.result = .ok text) :
    ∃ valid r, c.validate fs = .ok valid ∧ (Run.execute fs valid false faults).2.result = .ok r ∧
      (carryOut fs faults (.run c false)).1 = (Run.execute fs valid false faults).1 ∧
      text = summaryAndPaths c r := by
  cases hvalid : c.validate fs with
  | error f =>
    simp only [carryOut, hvalid] at h
    cases h
  | ok valid =>
    have hcarry : carryOut fs faults (.run c false) = ((Run.execute fs valid false faults).1,
        runText valid false <$> (Run.execute fs valid false faults).2) := by
      simp only [carryOut, hvalid]
    rw [hcarry] at h ⊢
    rw [Outcome.result_map, map_eq_ok_iff] at h
    obtain ⟨r, hr, rfl⟩ := h
    obtain ⟨houtput, hledger, -⟩ := Config.validate_eq_ok hvalid
    exact ⟨valid, r, rfl, hr, rfl, runText_eq houtput hledger r⟩

/-- A run that ends well has executed between the opening and the filling of the log. -/
theorem exists_execute {i : Invocation} (hcommand : i.command = .run c false)
    (hok : (run fs i faults).exitCode = 0) :
    ∃ opened valid r, c.validate opened = .ok valid ∧
      (Run.execute opened valid false faults).2.result = .ok r ∧
      Logged fs opened (Run.execute opened valid false faults).1 (run fs i faults).files ∧
      (run fs i faults).errors = "" ∧
      ∃ events, (run fs i faults).output =
        eventLines (some .warn) events ++ summaryAndPaths c r := by
  cases hlog : i.log with
  | false =>
    have hrun : run fs i faults =
        conclude (carryOut fs faults i.command).1 (carryOut fs faults i.command).2 := by
      unfold run
      rw [hlog, if_neg (by simp)]
    rw [hrun, hcommand] at hok ⊢
    obtain ⟨text, hresult, hending⟩ := conclude_of_exitCode hok
    obtain ⟨valid, r, hvalid, hr, hfiles, rfl⟩ := carryOut_run hresult
    rw [hending, hfiles]
    exact ⟨fs, valid, r, hvalid, hr, .without _, rfl, _, rfl⟩
  | true =>
    unfold run at hok ⊢
    rw [hlog, if_pos rfl] at hok ⊢
    cases hopen : fs.openEmpty logPath with
    | error e => simp [hopen] at hok
    | ok opening =>
      obtain ⟨opened, place⟩ := opening
      rw [hcommand] at hok ⊢
      simp only [hopen] at hok ⊢
      obtain ⟨text, hresult, hending⟩ := conclude_of_exitCode hok
      obtain ⟨valid, r, hvalid, hr, hfiles, rfl⟩ := carryOut_run hresult
      rw [hending, hfiles]
      exact ⟨opened, valid, r, hvalid, hr, .between _ _ hopen, rfl, _, rfl⟩

/-! ## The artefacts -/

/-- What the output and the two files of a run say, if these have the places `p` and `q`. -/
structure Artefacts (fs : FileSystem) (c : Config) (e : Ending) (l : Ledger) (r : Report)
    (p q : Place) : Prop where
  output : ∃ events, e.output = eventLines (some .warn) events ++ summaryAndPaths c r
  errors : e.errors = ""
  report_place : AtomicWrite.targetPlace fs c.output = .ok p
  ledger_place : AtomicWrite.targetPlace fs c.ledger = .ok q
  report : p ≠ q → ∃ mode json,
    e.files.find? p = some (.file mode (Report.wrap c.format json).toUTF8) ∧
    (AtomicWrite.IsDirect fs c.output →
      e.files.stat c.output = .ok (some p, .file mode (Report.wrap c.format json).toUTF8)) ∧
    ((∀ row ∈ r.albums, row.total < Json.wordBound) → Report.decode json = .ok r)
  ledger : ∃ text, e.files.readText c.ledger = .ok text ∧ Ledger.decode text = .ok l
  rows : ∀ y ∈ r.years, ∀ row ∈ y.albums, ∃ names,
    l.album? y.year row.album = some names ∧ names.length = row.total ∧ names.Nodup

/-- What a status on the ledger prints, and how this agrees with the report. -/
inductive Agrees (path : Path) (l : Ledger) (r : Report) : String → Prop where
  | empty : l.isEmpty = true → r.albums = [] →
      Agrees path l r ("Ledger " ++ path.display ++ " is empty\n")
  | listed (s : Listing) : s.IsAscending →
      (∀ year album n, (year, album, n) ∈ s.rows ↔
        ∃ names, l.album? year album = some names ∧ names.length = n) →
      (∀ y ∈ r.years, ∀ row ∈ y.albums, (y.year, row.album, row.total) ∈ s.rows) →
      r.totals.albums ≤ s.albumCount → r.totals.total ≤ s.fileCount →
      Agrees path l r (s.text path)

theorem agrees_statusText (h : Run.IsAccount l r) (path : Path) :
    Agrees path l r (statusText path l) := by
  cases hempty : l.isEmpty with
  | true =>
    rw [statusText, if_pos hempty]
    refine .empty hempty (List.eq_nil_iff_forall_not_mem.2 fun row hrow => ?_)
    obtain ⟨y, hy, hmem⟩ := List.mem_flatMap.1 hrow
    obtain ⟨names, hnames, -⟩ := h.rows y hy row hmem
    have hyears : l.years.entries = [] := List.isEmpty_iff.1 hempty
    simp [Ledger.album?, TextMap.get?, hyears, TextMap.valueAt] at hnames
  | false =>
    rw [statusText_eq path hempty]
    refine .listed _ l.isAscending_listing (fun year album n => Ledger.mem_rows_listing)
      (fun y hy row hrow => Ledger.mem_rows_listing.2 (h.rows y hy row hrow)) ?_ ?_
    · rw [Ledger.albumCount_listing]
      exact h.albums_le
    · rw [Ledger.fileCount_listing]
      exact h.total_le

/-- Whenever a run ends well, the report's file, the summary in print and the ledger's file come
from one report and one ledger; a status on the ledger's file then ends well, changes nothing, and
prints what agrees with them.  The report is at the place that its path named, and its path leads
there if it was direct. -/
theorem run_then_status (htree : fs.IsTree) {i : Invocation} (hcommand : i.command = .run c false)
    (hok : (run fs i faults).exitCode = 0) :
    ∃ l r p q, Artefacts fs c (run fs i faults) l r p q ∧
      ∀ j path later, j.command = .status path → j.log = false →
        (run fs i faults).files.stat path = (run fs i faults).files.stat c.ledger →
        ∃ out, run (run fs i faults).files j later = ⟨0, out, "", (run fs i faults).files⟩ ∧
          Agrees path l r out := by
  obtain ⟨opened, valid, r, hvalid, hr, hlogged, herrors, houtput⟩ := exists_execute hcommand hok
  obtain ⟨houtput_path, hledger_path, hformat⟩ := Config.validate_eq_ok hvalid
  obtain ⟨l, p, q, hsurvey, hwritten⟩ := Run.written_of_execute hr
  have haccount := Run.isAccount_of_survey hsurvey
  have hread := Run.readText_ledger (hlogged.isTree htree) hsurvey hr
  have hledger := hwritten.ledger_place
  have hreport := hwritten.report_place
  obtain ⟨mode, hstat⟩ := hwritten.ledger
  rw [hledger_path] at hledger hread hstat
  rw [houtput_path] at hreport
  have hlater : (run fs i faults).files.readText c.ledger = .ok l.encode := by
    rw [← hread]
    refine FileSystem.readText_of_stat ?_
    rw [hstat]
    exact hlogged.stat (toUTF8_ne_empty l.encode_ne_empty) hstat
  refine ⟨l, r, p, q, ⟨houtput, herrors, (hlogged.targetPlace hreport).1,
    (hlogged.targetPlace hledger).1, fun hpq => ?_, ⟨_, hlater, Ledger.decode_encode l⟩,
    fun y hy row hrow => ?_⟩, fun j path later hstatus hlog hpath => ?_⟩
  · obtain ⟨mode, hfind, hstat⟩ := hwritten.report hpq
    have hcontents := toUTF8_ne_empty (r.render_ne_empty valid.format)
    rw [houtput_path] at hstat
    refine ⟨mode, r.encode, ?_, fun hdirect => ?_, fun hfit =>
      Report.decode_encode (haccount.fits hfit)⟩
    · rw [← hformat, ← Report.render_eq_wrap]
      exact hlogged.find? hcontents hfind
    · rw [if_pos ((hlogged.targetPlace hreport).2.2 hdirect)] at hstat
      rw [← hformat, ← Report.render_eq_wrap]
      exact hlogged.stat hcontents hstat
  · obtain ⟨names, hnames, hlength⟩ := haccount.rows y hy row hrow
    exact ⟨names, hnames, hlength, haccount.free _ _ _ hnames⟩
  · have hthere := (FileSystem.readText_of_stat hpath).trans hlater
    exact ⟨_, run_status hstatus hlog hthere haccount.free later, agrees_statusText haccount path⟩

/-- A run without a log, and one with a log of everything. -/
def silent (c : Config) : Invocation := ⟨.run c false, false, none⟩

def logged (c : Config) : Invocation := ⟨.run c false, true, some .trace⟩

/-- A run that ends well need not leave a report where the output path leads. -/
theorem report_behind_its_path :
    (run Run.loopedOut (silent Run.throughLoop) Run.noFaults).exitCode = 0 ∧
      AtomicWrite.targetPlace Run.loopedOut Run.throughLoop.output ≠
        AtomicWrite.targetPlace Run.loopedOut Run.throughLoop.ledger ∧
      (run Run.loopedOut (silent Run.throughLoop) Run.noFaults).files.readText Run.throughLoop.output =
        .error (.os .notFolder) := by
  decide +kernel

theorem run_then_status_linkedLedger :
    let c := Run.overTwoRoots "/counts.json" "/photo_data.js"
    let e := run Run.linkedLedger (logged c) Run.noFaults
    e.exitCode = 0 ∧ AtomicWrite.IsDirect Run.linkedLedger c.output ∧
      ∃ l r p q out, p ≠ q ∧ Artefacts Run.linkedLedger c e l r p q ∧
        run e.files ⟨.status c.ledger, false, none⟩ Run.noFaults = ⟨0, out, "", e.files⟩ ∧
        Agrees c.ledger l r out := by
  intro c e
  have hruns : Run.linkedLedger.IsTree ∧
      (run Run.linkedLedger (logged c) Run.noFaults).exitCode = 0 ∧
      AtomicWrite.targetPlace Run.linkedLedger c.output ≠
        AtomicWrite.targetPlace Run.linkedLedger c.ledger ∧
      AtomicWrite.IsDirect Run.linkedLedger c.output := by
    decide +kernel
  obtain ⟨htree, hok, hne, hdirect⟩ := hruns
  obtain ⟨l, r, p, q, hartefacts, hstatus⟩ := run_then_status htree rfl hok
  obtain ⟨out, hrun, hagrees⟩ :=
    hstatus ⟨.status c.ledger, false, none⟩ c.ledger Run.noFaults rfl rfl rfl
  refine ⟨hok, hdirect, l, r, p, q, out, ?_, hartefacts, hrun, hagrees⟩
  rintro rfl
  exact hne (hartefacts.report_place.trans hartefacts.ledger_place.symm)

end Program

end PhotoTally
