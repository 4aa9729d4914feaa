import PhotoTally.Reconcile
import PhotoTally.Proofs.Outcome
import Mathlib.Tactic

/-!
# The steps of a run that can fail

A run lists the source root, then for each year lists its folder, and for each album scans the raw
files and the pictures.  It fails with the first of these steps that fails
(`run_eq_error_iff`), and succeeds if all of them do (`run_isOk_iff`).
-/

namespace PhotoTally

/-- Why a computation failed, if it did. -/
def Outcome.failure? {α : Type} (x : Outcome α) : Option Failure :=
  match x.result with
  | .ok _ => none
  | .error f => some f

theorem Outcome.failure?_eq_none_iff {α : Type} {x : Outcome α} :
    x.failure? = none ↔ ∃ a, x.result = .ok a := by
  unfold failure?
  cases x.result <;> simp

namespace Reconcile

variable {fs : FileSystem} {c : Config} {l : Ledger} {year : String}

/-- The folder of a year below the source root. -/
def yearFolder (c : Config) (year : String) : Path := c.source.join (.ofString year)

/-- A step of a run that can fail. -/
inductive Check where
  | years
  | albums (year : String)
  | raws (year album : String)
  | edits (year album : String)
  deriving DecidableEq

/-- Why a step fails, if it does. -/
def Check.failure? (fs : FileSystem) (c : Config) : Check → Option Failure
  | years => (Scan.subfolders fs c.source).failure?
  | albums year => (Scan.subfolders fs (yearFolder c year)).failure?
  | raws year album => (Scan.raws fs (albumFolder c.source year album)).failure?
  | edits year album => (Scan.edits fs (albumFolder c.dest year album)).failure?

/-- The names in a listing, none if it fails. -/
def listed (fs : FileSystem) (folder : Path) : List String :=
  (Scan.subfolders fs folder).result.toOption.getD []

theorem listed_of_ok {folder : Path} {names : List String}
    (h : (Scan.subfolders fs folder).result = .ok names) : listed fs folder = names := by
  rw [listed, h]
  rfl

/-- The steps for the listed albums of a year. -/
def checksOfAlbums (year : String) (names : List String) : List Check :=
  names.flatMap fun album => [.raws year album, .edits year album]

theorem checksOfAlbums_cons (year name : String) (rest : List String) :
    checksOfAlbums year (name :: rest) =
      [.raws year name, .edits year name] ++ checksOfAlbums year rest := List.flatMap_cons

/-- The steps for the listed years. -/
def checksOfYears (fs : FileSystem) (c : Config) (years : List String) : List Check :=
  years.flatMap fun year =>
    .albums year :: checksOfAlbums year (listed fs (yearFolder c year))

theorem checksOfYears_cons (fs : FileSystem) (c : Config) (year : String) (rest : List String) :
    checksOfYears fs c (year :: rest) =
      .albums year :: (checksOfAlbums year (listed fs (yearFolder c year)) ++
        checksOfYears fs c rest) := List.flatMap_cons

/-- All steps, in the order in which they are taken. -/
def checks (fs : FileSystem) (c : Config) : List Check :=
  .years :: checksOfYears fs c (listed fs c.source)

/-! ## Albums -/

theorem result_album (fs : FileSystem) (c : Config) (l : Ledger) (year name : String) :
    (album fs c l year name).2.result =
      match (Scan.raws fs (albumFolder c.source year name)).result with
      | .error f => .error f
      | .ok raw =>
        match (Scan.edits fs (albumFolder c.dest year name)).result with
        | .error f => .error f
        | .ok edited =>
          .ok (.count name ((l.update year name raw).names year name) raw edited) := by
  unfold album
  cases hraw : (Scan.raws fs (albumFolder c.source year name)).result with
  | error f => simp [hraw]
  | ok raw =>
    cases hedit : (Scan.edits fs (albumFolder c.dest year name)).result <;>
      simp [hraw, hedit, Outcome.result_bind, Except.map, Ledger.record_eq_names]

theorem ledger_album {name : String} {raw : NameSet}
    (h : (Scan.raws fs (albumFolder c.source year name)).result = .ok raw) :
    (album fs c l year name).1 = l.update year name raw := by
  unfold album
  simp only [h]
  rfl

theorem album_eq_error_iff {name : String} {f : Failure} :
    (album fs c l year name).2.result = .error f ↔
      [Check.raws year name, .edits year name].findSome? (·.failure? fs c) = some f := by
  rw [result_album, List.findSome?_cons, List.findSome?_cons, List.findSome?_nil]
  simp only [Check.failure?, Outcome.failure?]
  cases (Scan.raws fs (albumFolder c.source year name)).result with
  | error g => simp
  | ok raw => cases (Scan.edits fs (albumFolder c.dest year name)).result <;> simp

theorem result_albums_cons (fs : FileSystem) (c : Config) (year name : String)
    (rest : List String) (l : Ledger) :
    (albums fs c year (name :: rest) l).result =
      match (album fs c l year name).2.result with
      | .error f => .error f
      | .ok counts =>
        (albums fs c year rest (album fs c l year name).1).result.map fun (l', more) =>
          (l', counts :: more) := by
  rw [albums]
  simp only [Outcome.result_bind]
  cases (album fs c l year name).2.result with
  | error f => rfl
  | ok counts =>
    simp only [Outcome.result_note]
    cases (albums fs c year rest (album fs c l year name).1).result <;> rfl

theorem albums_eq_error_iff {names : List String} {f : Failure} :
    (albums fs c year names l).result = .error f ↔
      (checksOfAlbums year names).findSome? (·.failure? fs c) = some f := by
  induction names generalizing l with
  | nil => simp [albums, checksOfAlbums]
  | cons name rest ih =>
    rw [result_albums_cons, checksOfAlbums_cons, List.findSome?_append]
    cases hname : (album fs c l year name).2.result with
    | error g =>
      rw [album_eq_error_iff.1 hname]
      simp
    | ok counts =>
      rw [(exists_ok_iff fun _ => album_eq_error_iff).1 ⟨counts, hname⟩, Option.none_or, ← ih]
      exact map_eq_error_iff

/-! ## Years -/

theorem result_years_cons (fs : FileSystem) (c : Config) (year : String) (rest : List String)
    (l : Ledger) :
    (years fs c (year :: rest) l).result =
      match (Scan.subfolders fs (yearFolder c year)).result with
      | .error f => .error f
      | .ok names =>
        match (albums fs c year names l).result with
        | .error f => .error f
        | .ok (l₁, counts) =>
          (years fs c rest l₁).result.map fun (l', more) => (l', ⟨year, counts⟩ :: more) := by
  rw [years]
  simp only [Outcome.result_bind, yearFolder]
  cases (Scan.subfolders fs (c.source.join (Path.ofString year))).result with
  | error f => rfl
  | ok names =>
    simp only
    cases (albums fs c year names l).result with
    | error f => rfl
    | ok found =>
      obtain ⟨l₁, counts⟩ := found
      simp only
      cases (years fs c rest l₁).result <;> rfl

theorem years_eq_error_iff {names : List String} {f : Failure} :
    (years fs c names l).result = .error f ↔
      (checksOfYears fs c names).findSome? (·.failure? fs c) = some f := by
  induction names generalizing l with
  | nil => simp [years, checksOfYears]
  | cons year rest ih =>
    have halbums : Check.failure? fs c (.albums year) =
        (Scan.subfolders fs (yearFolder c year)).failure? := rfl
    rw [result_years_cons, checksOfYears_cons, List.findSome?_cons, List.findSome?_append, halbums]
    unfold listed Outcome.failure?
    cases hlist : (Scan.subfolders fs (yearFolder c year)).result with
    | error g => simp
    | ok names =>
      simp only [Except.toOption, Option.getD_some]
      cases hnames : (albums fs c year names l).result with
      | error g =>
        rw [albums_eq_error_iff.1 hnames]
        simp
      | ok found =>
        obtain ⟨l₁, counts⟩ := found
        rw [(exists_ok_iff fun _ => albums_eq_error_iff).1 ⟨_, hnames⟩, Option.none_or, ← @ih l₁]
        exact map_eq_error_iff

/-! ## Runs -/

theorem result_run (fs : FileSystem) (c : Config) (l : Ledger) :
    (run fs c l).result =
      match (Scan.subfolders fs c.source).result with
      | .error f => .error f
      | .ok names => (years fs c names l).result.map fun (l', reports) => (l', ⟨reports⟩) := by
  unfold run
  simp only [Outcome.result_bind, Outcome.result_note]
  cases (Scan.subfolders fs c.source).result with
  | error f => rfl
  | ok names =>
    simp only
    cases (years fs c names l).result <;> rfl

/-- A run fails with the first step that fails. -/
theorem run_eq_error_iff {f : Failure} :
    (run fs c l).result = .error f ↔
      (checks fs c).findSome? (·.failure? fs c) = some f := by
  have hyears : Check.failure? fs c .years = (Scan.subfolders fs c.source).failure? := rfl
  rw [result_run, checks, List.findSome?_cons, hyears]
  unfold listed Outcome.failure?
  cases (Scan.subfolders fs c.source).result with
  | error g => simp
  | ok names =>
    simp only [Except.toOption, Option.getD_some]
    rw [← years_eq_error_iff]
    exact map_eq_error_iff

/-- Whether every folder can be listed and every album be scanned. -/
def AllSucceed (fs : FileSystem) (c : Config) : Prop :=
  ∃ years, (Scan.subfolders fs c.source).result = .ok years ∧ ∀ year ∈ years,
    ∃ albums, (Scan.subfolders fs (yearFolder c year)).result = .ok albums ∧ ∀ album ∈ albums,
      (∃ raw, (Scan.raws fs (albumFolder c.source year album)).result = .ok raw) ∧
        ∃ edited, (Scan.edits fs (albumFolder c.dest year album)).result = .ok edited

theorem run_isOk_iff : (∃ result, (run fs c l).result = .ok result) ↔ AllSucceed fs c := by
  rw [exists_ok_iff fun _ => run_eq_error_iff, List.findSome?_eq_none_iff, checks,
    List.forall_mem_cons, checksOfYears, List.forall_mem_flatMap]
  simp only [checksOfAlbums, List.forall_mem_cons, List.forall_mem_flatMap, List.not_mem_nil,
    IsEmpty.forall_iff, implies_true, and_true, Check.failure?, Outcome.failure?_eq_none_iff]
  unfold AllSucceed
  constructor
  · rintro ⟨⟨years, hyears⟩, h⟩
    rw [listed_of_ok hyears] at h
    refine ⟨years, hyears, fun year hyear => ?_⟩
    obtain ⟨⟨albums, halbums⟩, hscans⟩ := h year hyear
    rw [listed_of_ok halbums] at hscans
    exact ⟨albums, halbums, hscans⟩
  · rintro ⟨years, hyears, h⟩
    rw [listed_of_ok hyears]
    refine ⟨⟨years, hyears⟩, fun year hyear => ?_⟩
    obtain ⟨albums, halbums, hscans⟩ := h year hyear
    rw [listed_of_ok halbums]
    exact ⟨⟨albums, halbums⟩, hscans⟩

end Reconcile

end PhotoTally
