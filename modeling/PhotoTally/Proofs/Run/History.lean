import PhotoTally.Proofs.Ledger.File
import PhotoTally.Proofs.Reconcile.Growth
import PhotoTally.Proofs.Run.Endings

/-!
# The ledger file over many calls

Calls follow one another, each in the file system that it finds; in between the folders may change
as they like, but the ledger file reads as it did after the call before.  What a call commits is
what the next one loads (`spelt_of_execute`), so in the end the file has what was there first, and
behind it what the calls that committed have added (`load_after_calls`).
-/

namespace PhotoTally

/-! ## The ledger after one run -/

namespace Ledger

variable {l : Ledger} {fs fs' : FileSystem} {path : Path}

theorem IsSpeltAt.of_readText_eq (h : l.IsSpeltAt fs path)
    (hread : fs'.readText path = fs.readText path) : l.IsSpeltAt fs' path := by
  unfold IsSpeltAt
  rw [hread]
  exact h

end Ledger

namespace Reconcile

variable {fs : FileSystem} {c : Config} {l l' : Ledger} {P : String → String → Prop}

theorem Grows.isDuplicateFree (h : Grows fs c P l l') (hl : l.IsDuplicateFree) :
    l'.IsDuplicateFree := by
  intro year album names hnames
  by_cases hP : P year album
  · obtain ⟨raw, -, hextend⟩ := h.recorded _ _ hP
    obtain rfl := Option.some.inj (hnames.symm.trans hextend)
    exact Ledger.nodup_extend (hl.nodup_names year album) raw
  · rw [h.kept _ _ hP] at hnames
    exact hl _ _ _ hnames

end Reconcile

namespace Run

/-- Whether the report does not take a place on the ledger's path. -/
def IsClear (fs : FileSystem) (c : Config) : Prop :=
  ∀ place, AtomicWrite.targetPlace fs c.output = .ok place → place ∉ fs.way c.ledger

instance (fs : FileSystem) (c : Config) : Decidable (IsClear fs c) :=
  decidable_of_iff ((AtomicWrite.targetPlace fs c.output).toOption.all fun place =>
      place ∉ fs.way c.ledger) <| by
    unfold IsClear
    cases AtomicWrite.targetPlace fs c.output <;> simp [Except.toOption]

variable {fs : FileSystem} {c : Config} {dry : Bool} {faults : Faults} {found : Ledger}

/-- A run that succeeds and is not dry saves what it has recorded; any other leaves the ledger's
text as it was. -/
theorem spelt_of_execute (hspelt : found.IsSpeltAt fs c.ledger) (hclear : IsClear fs c) :
    (∃ l r, dry = false ∧ (execute fs c dry faults).2.result = .ok r ∧
        (Reconcile.run fs c found.dedup).result = .ok (l, r) ∧
        l.IsSpeltAt (execute fs c dry faults).1 c.ledger) ∨
      (¬ (dry = false ∧ ∃ r, (execute fs c dry faults).2.result = .ok r) ∧
        (execute fs c dry faults).1.readText c.ledger = fs.readText c.ledger) := by
  have hreported : ∀ {place} (r : Report), AtomicWrite.targetPlace fs c.output = .ok place →
      (reported fs c r place).readText c.ledger = fs.readText c.ledger := by
    intro place r hplace
    obtain ⟨steps, n, parent, mode, rfl, -⟩ := AtomicWrite.exists_of_targetPlace hplace
    exact FileSystem.readText_put (List.cons_ne_nil n parent) _ (hclear _ hplace)
  have hending := ending_execute fs c dry faults
  generalize (execute fs c dry faults).1 = after,
    (execute fs c dry faults).2.result = result at hending ⊢
  cases hending with
  | unread hsurvey => exact .inr ⟨by simp, rfl⟩
  | dry hdry hsurvey => exact .inr ⟨by simp [hdry], rfl⟩
  | unreported hdry hsurvey hreport => exact .inr ⟨by simp, rfl⟩
  | unsaved hdry hsurvey hreport hplace hledger => exact .inr ⟨by simp, hreported _ hplace⟩
  | @committed l r place hdry hsurvey hplace hledger =>
    obtain ⟨l₀, hload, hrun⟩ := survey_eq_ok_iff.1 hsurvey
    have hfound := Ledger.load_eq_ok_iff.2 ⟨found, hspelt, rfl⟩
    obtain rfl := Except.ok.inj (hload.symm.trans hfound)
    refine .inl ⟨l, r, hdry, rfl, hrun, Ledger.isSpeltAt_save hledger ?_⟩
    exact (hspelt.of_readText_eq (hreported r hplace)).isLegible

end Run

/-! ## Calls -/

/-- A run, the file system that it finds, and what goes wrong in its writes. -/
structure Call where
  before : FileSystem
  config : Config
  dry : Bool
  faults : Run.Faults

namespace Call

/-- The file system that a call leaves behind. -/
def after (k : Call) : FileSystem := (Run.execute k.before k.config k.dry k.faults).1

/-- Whether a call succeeds and is not dry. -/
def Commits (k : Call) : Prop :=
  k.dry = false ∧ ∃ r, (Run.execute k.before k.config k.dry k.faults).2.result = .ok r

/-- Whether a call succeeds, is not dry, and visits an album. -/
def Records (k : Call) (year album : String) : Prop :=
  k.Commits ∧ Reconcile.Visits k.before k.config year album

end Call

/-- Whether calls with the ledger at `path` can follow one another from `fs` on: each finds the
ledger file as the one before has left it, and keeps its report off the ledger's path. -/
def Follows (path : Path) : FileSystem → List Call → Prop
  | _, [] => True
  | fs, k :: rest =>
    k.config.ledger = path ∧ k.before.readText path = fs.readText path ∧
      Run.IsClear k.before k.config ∧ Follows path k.after rest

instance decidableFollows (path : Path) (fs : FileSystem) : (calls : List Call) →
    Decidable (Follows path fs calls)
  | [] => .isTrue trivial
  | k :: rest =>
    have := decidableFollows path k.after rest
    inferInstanceAs (Decidable (_ ∧ _ ∧ _ ∧ _))

/-- The file system after calls, `fs` if there are none. -/
def afterCalls (fs : FileSystem) : List Call → FileSystem
  | [] => fs
  | k :: rest => afterCalls k.after rest

/-- Whether `now` is what an album has after calls if it had `known` before: each call that records
the album adds its raw scan, the others nothing. -/
inductive Recorded (year album : String) :
    Option (List String) → List Call → Option (List String) → Prop where
  | none (known : Option (List String)) : Recorded year album known [] known
  | added {k : Call} {rest : List Call} {known now : Option (List String)} {raw : NameSet}
      {next : List String} : k.Records year album →
        (Scan.raws k.before (albumFolder k.config.source year album)).result = .ok raw →
        Ledger.Extends (known.getD []) raw next → Recorded year album (some next) rest now →
        Recorded year album known (k :: rest) now
  | passed {k : Call} {rest : List Call} {known now : Option (List String)} :
      ¬ k.Records year album → Recorded year album known rest now →
        Recorded year album known (k :: rest) now

theorem Recorded.isSome_iff {year album : String} {calls : List Call}
    {known now : Option (List String)} (h : Recorded year album known calls now) :
    now.isSome ↔ known.isSome ∨ ∃ k ∈ calls, k.Records year album := by
  induction h with
  | none known => simp
  | added hrecords _ _ _ ih => simp [ih, hrecords]
  | passed hrecords _ ih => simp [ih, hrecords]

variable {fs : FileSystem} {path : Path} {calls : List Call} {found : Ledger}

/-- The ledger file spells a ledger after each call, and the calls have added to it what they have
recorded. -/
theorem recorded_of_follows (hspelt : found.IsSpeltAt fs path) (hcalls : Follows path fs calls) :
    ∃ last : Ledger, last.IsSpeltAt (afterCalls fs calls) path ∧ ∀ year album,
      Recorded year album (found.dedup.album? year album) calls (last.dedup.album? year album) := by
  induction calls generalizing fs found with
  | nil => exact ⟨found, hspelt, fun _ _ => .none _⟩
  | cons k rest ih =>
    obtain ⟨rfl, hread, hclear, hrest⟩ := hcalls
    have hbefore := hspelt.of_readText_eq hread
    rcases @Run.spelt_of_execute _ _ k.dry k.faults _ hbefore hclear with
      ⟨l, r, hdry, hok, hrun, hafter⟩ | ⟨hnot, hafter⟩
    · have hgrows := Reconcile.grows_of_run hrun
      have hfree := hgrows.isDuplicateFree (Ledger.isDuplicateFree_dedup found)
      obtain ⟨last, hlast, hrecorded⟩ := ih hafter hrest
      rw [hfree.dedup_eq] at hrecorded
      refine ⟨last, hlast, fun year album => ?_⟩
      by_cases hvisits : Reconcile.Visits k.before k.config year album
      · obtain ⟨raw, hraw, hnow⟩ := hgrows.recorded _ _ hvisits
        have := hrecorded year album
        rw [hnow] at this
        exact .added ⟨⟨hdry, r, hok⟩, hvisits⟩ hraw (Ledger.extends_extend _ _) this
      · have := hrecorded year album
        rw [hgrows.kept _ _ hvisits] at this
        exact .passed (fun hrecords => hvisits hrecords.2) this
    · obtain ⟨last, hlast, hrecorded⟩ := ih (hbefore.of_readText_eq hafter) hrest
      refine ⟨last, hlast, fun year album => .passed ?_ (hrecorded year album)⟩
      exact fun hrecords => hnot hrecords.1

/-- After any calls the ledger can be loaded, and an album has the names that it had at first, each
once, followed by what the calls have added; it is there if it was at first or a call has recorded
it. -/
theorem load_after_calls (hspelt : found.IsSpeltAt fs path) (hcalls : Follows path fs calls) :
    ∃ l, (Ledger.load (afterCalls fs calls) path).result = .ok l ∧ ∀ year album,
      Recorded year album ((found.album? year album).map Ledger.firstOccurrences) calls
        (l.album? year album) ∧
      ((l.album? year album).isSome ↔
        (found.album? year album).isSome ∨ ∃ k ∈ calls, k.Records year album) := by
  obtain ⟨last, hlast, hrecorded⟩ := recorded_of_follows hspelt hcalls
  refine ⟨last.dedup, Ledger.load_eq_ok_iff.2 ⟨last, hlast, rfl⟩, fun year album => ?_⟩
  have hnames := hrecorded year album
  rw [Ledger.album?_dedup found] at hnames
  refine ⟨hnames, ?_⟩
  rw [hnames.isSome_iff, Option.isSome_map]

namespace Run

/-- A report that is to be named as the missing folder of the ledger. -/
def usurping : Config := overTwoRoots "/out/counts.json" "/out"

/-- A report in the place of a missing folder on the ledger's path bars the way to the ledger. -/
theorem load_fails_behind_report :
    (Ledger.load twoRoots usurping.ledger).result = .ok .empty ∧
      twoRoots.stat usurping.output = .error (.os .notFound) ∧
      usurping.output ≠ usurping.ledger ∧
      (Ledger.load (execute twoRoots usurping false noFaults).1 usurping.ledger).result =
        .error (.io usurping.ledger (.os .notFolder)) := by
  decide +kernel

/-- One raw file in one album. -/
def oneAlbum : FileSystem :=
  .ofPaths ["/raws", "/raws/2023", "/raws/2023/Trip", "/edits"] ["/raws/2023/Trip/A.NEF"]

/-- A first call, and a second one after a raw file was added. -/
def twoCalls : List Call :=
  let c := overTwoRoots "/counts.json" "/photo_data.js"
  let first : Call := ⟨oneAlbum, c, false, noFaults⟩
  let added := (Path.ofString "/raws/2023/Trip/B.NEF").place
  [first, ⟨first.after.put added (.file Mode.plainFile .empty), c, false, noFaults⟩]

theorem load_after_two_calls :
    Ledger.empty.IsSpeltAt oneAlbum (.ofString "/counts.json") ∧
      Follows (.ofString "/counts.json") oneAlbum twoCalls ∧
      ∃ l, (Ledger.load (afterCalls oneAlbum twoCalls) (.ofString "/counts.json")).result = .ok l ∧
        ∀ year album,
          Recorded year album
            ((Ledger.empty.album? year album).map Ledger.firstOccurrences) twoCalls
            (l.album? year album) ∧
          ((l.album? year album).isSome ↔
            (Ledger.empty.album? year album).isSome ∨ ∃ k ∈ twoCalls, k.Records year album) := by
  have hspelt : Ledger.empty.IsSpeltAt oneAlbum (.ofString "/counts.json") :=
    .inl ⟨by decide +kernel, rfl⟩
  have hcalls : Follows (.ofString "/counts.json") oneAlbum twoCalls := by decide +kernel
  exact ⟨hspelt, hcalls, load_after_calls hspelt hcalls⟩

end Run

end PhotoTally
