import PhotoTally.Proofs.CommandLine.Options

/-!
# A run that is asked for

A `Request` says which options of a run are given, without an order, and `Request.IsSpelt` which
arguments ask for it.  When these have been read, the options of the program and of the command
together are those of the request, whichever side the ones that both take are on
(`value?_or_value?`, `has_or_has`), and the environment fills in for a root that no option gives
(`orElse_eq_ok`).  So all arguments that spell a request come to one outcome
(`parse_eq_outcome`).
-/

namespace PhotoTally

/-- Whether the environment gives no empty root. -/
structure Environment.IsPlain (env : Environment) : Prop where
  source : env.source ≠ some []
  dest : env.dest ≠ some []

namespace CommandLine

open Text

/-- What is asked of a run: the values of options that have one, and which of the others are
given. -/
structure Request where
  value? : Setting → Option String
  json : Bool
  dry : Bool
  log : Bool

namespace Request

variable {r : Request} {env : Environment} {outer inner : List Item} {s : Setting} {w : Switch}

/-- Whether an option without a value is given. -/
def has (r : Request) : Switch → Bool
  | .json => r.json
  | .dry => r.dry
  | .log => r.log
  | .help | .version => false

/-- The options that are given. -/
def items (r : Request) : List Item :=
  ([.source, .dest, .ledger, .output, .varName, .logLevel].filterMap fun s =>
      (r.value? s).map (Item.setting s)) ++
    ([.json, .dry, .log].filter r.has).map Item.switch

/-- Whether an option can stand before the command, too. -/
def IsGlobal : Item → Prop
  | .setting s _ => s = .logLevel
  | .switch s => s = .log

/-- Whether arguments spell a request: its options in any order, each in either way, and those that
can stand before the command before it or behind it. -/
def IsSpelt (r : Request) (args : List Argument) : Prop :=
  ∃ (outer inner : List Item) (before behind : List (List Argument)),
    (outer ++ inner).Perm r.items ∧ (∀ i ∈ outer, IsGlobal i) ∧
      List.Forall₂ Item.Spelt outer before ∧ List.Forall₂ Item.Spelt inner behind ∧
      args = before.flatten ++ bytes "run" :: behind.flatten

/-- Whether the values can be given in either spelling. -/
def IsPlain (r : Request) : Prop := ∀ s value, r.value? s = some value → IsValue s value

/-! ## The options of a request -/

theorem setting_mem_items {value : String} :
    Item.setting s value ∈ r.items ↔ r.value? s = some value := by
  cases s <;> simp [items]

theorem switch_mem_items : Item.switch w ∈ r.items ↔ r.has w = true := by
  cases w <;> simp [items, has]

/-- No option is given twice. -/
theorem nodup_items (r : Request) : (r.items.map Item.kind).Nodup := by
  have hkind (s : Setting) (k : Setting ⊕ Switch)
      (hk : k ∈ ((r.value? s).map (Item.setting s)).map Item.kind) : k = Sum.inl s := by
    cases hvalue : r.value? s with
    | none =>
      rw [hvalue] at hk
      cases hk
    | some value =>
      rw [hvalue] at hk
      exact (Option.some.inj hk).symm
  unfold items
  rw [List.map_append, List.map_filterMap, List.map_map, List.nodup_append]
  refine ⟨?_, ?_, ?_⟩
  · refine List.Nodup.filterMap (fun s t k hs ht => ?_) (by decide)
    exact Sum.inl.inj ((hkind s k hs).symm.trans (hkind t k ht))
  · exact List.Nodup.map Sum.inr_injective (List.Nodup.filter _ (by decide))
  · intro k hk l hl
    obtain ⟨s, -, hs⟩ := List.mem_filterMap.1 hk
    obtain ⟨w, -, rfl⟩ := List.mem_map.1 hl
    rw [hkind s k hs]
    exact Sum.inl_ne_inr

theorem takes_run (hr : r.IsPlain) {i : Item} (hi : i ∈ r.items) : Scope.Takes .run i := by
  cases i with
  | setting s value =>
    refine ⟨?_, hr s value (setting_mem_items.1 hi)⟩
    cases s <;> decide
  | switch w =>
    have hw := switch_mem_items.1 hi
    cases w with
    | help => cases hw
    | version => cases hw
    | _ => exact ⟨by decide, by decide, by decide⟩

theorem takes_program (hr : r.IsPlain) {i : Item} (hi : i ∈ r.items) (hglobal : IsGlobal i) :
    Scope.Takes .program i := by
  cases i with
  | setting s value =>
    obtain rfl : s = .logLevel := hglobal
    exact ⟨by decide, hr _ value (setting_mem_items.1 hi)⟩
  | switch w =>
    obtain rfl : w = .log := hglobal
    exact ⟨by decide, by decide, by decide⟩

/-! ## What has been taken up -/

section Both

variable (hperm : (outer ++ inner).Perm r.items) (hglobal : ∀ i ∈ outer, IsGlobal i)

include hperm

theorem setting_mem_iff (value : String) :
    Item.setting s value ∈ outer ∨ Item.setting s value ∈ inner ↔ r.value? s = some value := by
  rw [← List.mem_append, hperm.mem_iff, setting_mem_items]

theorem has_or_has : ((Given.ofItems inner).has w || (Given.ofItems outer).has w) = r.has w := by
  rw [Bool.eq_iff_iff, Bool.or_eq_true, has_ofItems, has_ofItems, Or.comm, ← List.mem_append,
    hperm.mem_iff, switch_mem_items]

/-- An option is given on one side of the command, or on the other. -/
theorem value?_or_value? : ((Given.ofItems inner).value? s).or ((Given.ofItems outer).value? s) =
    (r.value? s).map bytes := by
  have hmem := setting_mem_iff (s := s) hperm
  rcases value?_ofItems_cases inner s with ⟨hnone, hinner⟩ | ⟨v, hsome, hinner⟩
  · rcases value?_ofItems_cases outer s with ⟨hnone', houter⟩ | ⟨v, hsome, houter⟩
    · have hno : r.value? s = none := Option.eq_none_iff_forall_ne_some.2 fun value hvalue =>
        ((hmem value).2 hvalue).elim (houter value) (hinner value)
      rw [hnone, hnone', hno]
      rfl
    · rw [hnone, hsome, (hmem v).1 (.inl houter)]
      rfl
  · rw [hsome, (hmem v).1 (.inr hinner)]
    rfl

include hglobal

theorem value?_inner (hs : s ≠ .logLevel) :
    (Given.ofItems inner).value? s = (r.value? s).map bytes := by
  have houter : (Given.ofItems outer).value? s = none := by
    rcases value?_ofItems_cases outer s with ⟨hnone, -⟩ | ⟨v, -, hmem⟩
    · exact hnone
    · exact absurd (hglobal _ hmem) hs
  rw [← value?_or_value? hperm, houter, Option.or_none]

theorem has_inner (hw : w ≠ .log) : (Given.ofItems inner).has w = r.has w := by
  have hnot : (Given.ofItems outer).has w = false := by
    rw [← Bool.not_eq_true, has_ofItems]
    exact fun hmem => hw (hglobal _ hmem)
  rw [← has_or_has hperm, hnot, Bool.or_false]

end Both

/-! ## The outcome -/

/-- A root: what its option gives, or else the environment. -/
def root? (r : Request) (s : Setting) (fallback : Option Argument) : Option Argument :=
  ((r.value? s).map bytes).or fallback

/-- The run that is asked for, from its two roots. -/
def invocation (r : Request) (source dest : Argument) : Invocation where
  command := .run
    { source := ⟨source⟩
      dest := ⟨dest⟩
      ledger := ((r.value? .ledger).map Path.ofString).getD (.ofString "counts.json")
      output := ((r.value? .output).map Path.ofString).getD (.ofString "photo_data.js")
      format := if r.json then .json else .script ((r.value? .varName).getD "data") }
    r.dry
  log := r.log
  threshold := ((r.value? .logLevel).bind level?).getD (some .debug)

/-- Whether options are given that exclude each other. -/
def IsTorn (r : Request) : Prop := r.json = true ∧ (r.value? .varName).isSome = true

instance (r : Request) : Decidable r.IsTorn := inferInstanceAs (Decidable (_ ∧ _))

/-- What arguments that spell a request come to. -/
def outcome (r : Request) (env : Environment) : Except Refusal Invocation :=
  if r.IsTorn then .error .conflict
  else match r.root? .source env.source, r.root? .dest env.dest with
    | some source, some dest => .ok (r.invocation source dest)
    | _, _ => .error .argumentMissing

theorem outcome_eq_ok {i : Invocation} :
    r.outcome env = .ok i ↔ ¬ r.IsTorn ∧ ∃ source dest, r.root? .source env.source = some source ∧
      r.root? .dest env.dest = some dest ∧ i = r.invocation source dest := by
  unfold outcome
  by_cases h : r.IsTorn
  · simp [h]
  · cases r.root? .source env.source with
    | none => simp [h]
    | some source => cases r.root? .dest env.dest <;> simp [h, eq_comm]

theorem root?_eq_none {fallback : Option Argument} :
    r.root? s fallback = none ↔ r.value? s = none ∧ fallback = none := by
  simp [root?]

/-- A request is refused if one of its roots is nowhere given, or if it is torn. -/
theorem outcome_eq_error : (∃ refusal, r.outcome env = .error refusal) ↔
    (r.value? .source = none ∧ env.source = none) ∨ (r.value? .dest = none ∧ env.dest = none) ∨
      r.IsTorn := by
  rw [← root?_eq_none, ← root?_eq_none]
  unfold outcome
  by_cases h : r.IsTorn
  · simp [h]
  · cases r.root? .source env.source with
    | none => simp [h]
    | some source => cases r.root? .dest env.dest <;> simp [h]

/-- The environment fills in for an option that is not given, and leaves all else as it is. -/
theorem orElse_eq_ok (g : Given) {s : Setting} (hs : s = .source ∨ s = .dest)
    {fallback : Option Argument} (hne : fallback ≠ some []) :
    ∃ g', g.orElse s fallback = .ok g' ∧ g'.value? s = (g.value? s).or fallback ∧
      (∀ t ≠ s, g'.value? t = g.value? t) ∧ g'.switches = g.switches := by
  cases hgiven : g.value? s with
  | some a =>
    refine ⟨g, ?_, hgiven.trans rfl, fun _ _ => rfl, rfl⟩
    unfold Given.orElse
    rw [hgiven]
  | none =>
    cases fallback with
    | none =>
      refine ⟨g, ?_, hgiven.trans rfl, fun _ _ => rfl, rfl⟩
      unfold Given.orElse
      rw [hgiven]
    | some a =>
      have ha : a ≠ [] := fun h => hne (congrArg some h)
      have hcheck : s.check a = .ok () := by
        rcases hs with rfl | rfl <;> simp [Setting.check, ha]
      have hfind : g.settings.find? (·.1 = s) = none := Option.map_eq_none_iff.1 hgiven
      refine ⟨{ g with settings := g.settings ++ [(s, a)] }, ?_, ?_, fun t ht => ?_, rfl⟩
      · unfold Given.orElse Given.addSetting
        simp [hgiven, hcheck, Except.map]
      · simp [Given.value?, List.find?_append, hfind]
      · simp [Given.value?, List.find?_append, ht.symm]

/-- Whether options that have been taken up are those of a request, but for the ones that can stand
before the command, with the environment's roots where it has none of its own. -/
structure IsFilled (r : Request) (env : Environment) (g : Given) : Prop where
  source : g.value? .source = r.root? .source env.source
  dest : g.value? .dest = r.root? .dest env.dest
  value? (s : Setting) (h : s ≠ .source ∧ s ≠ .dest ∧ s ≠ .logLevel) :
    g.value? s = (r.value? s).map bytes
  has (w : Switch) (h : w ≠ .log) : g.has w = r.has w

theorem exists_isFilled (henv : env.IsPlain) (hperm : (outer ++ inner).Perm r.items)
    (hglobal : ∀ i ∈ outer, IsGlobal i) :
    ∃ g g', (Given.ofItems inner).orElse .source env.source = .ok g ∧
      g.orElse .dest env.dest = .ok g' ∧ r.IsFilled env g' := by
  obtain ⟨g, hg, hsource, hrest, hswitches⟩ :=
    orElse_eq_ok (.ofItems inner) (.inl rfl) henv.source
  obtain ⟨g', hg', hdest, hrest', hswitches'⟩ := orElse_eq_ok g (.inr rfl) henv.dest
  have hvalue (s : Setting) (h : s ≠ .logLevel) := value?_inner hperm hglobal (s := s) h
  refine ⟨g, g', hg, hg', ?_, ?_, fun s h => ?_, fun w h => ?_⟩
  · rw [hrest' _ (by decide), hsource, hvalue _ (by decide)]
    rfl
  · rw [hdest, hrest _ (by decide), hvalue _ (by decide)]
    rfl
  · rw [hrest' _ h.2.1, hrest _ h.1, hvalue _ h.2.2]
  · rw [← has_inner hperm hglobal h]
    unfold Given.has
    rw [hswitches', hswitches]

section Filled

variable {g : Given} (hg : r.IsFilled env g)

include hg

theorem IsFilled.path {s : Setting} (h : s ≠ .source ∧ s ≠ .dest ∧ s ≠ .logLevel)
    (default : Path) : g.path s default = ((r.value? s).map Path.ofString).getD default := by
  unfold Given.path
  rw [hg.value? s h, Option.map_map]
  rfl

theorem IsFilled.format :
    g.format = if r.json then .json else .script ((r.value? .varName).getD "data") := by
  have hname : (g.value? .varName).bind ofBytes? = r.value? .varName := by
    rw [hg.value? .varName (by decide)]
    cases r.value? .varName <;> simp
  unfold Given.format
  rw [hname, hg.has .json (by decide)]
  rfl

end Filled

/-- The command that the options behind its name make. -/
theorem commandOf_run (henv : env.IsPlain) (hperm : (outer ++ inner).Perm r.items)
    (hglobal : ∀ i ∈ outer, IsGlobal i) :
    commandOf env .run (.ofItems inner) = (r.outcome env).map (·.command) := by
  obtain ⟨g, g', hsource, hdest, hg⟩ := exists_isFilled henv hperm hglobal
  have htorn : (g'.has .json && (g'.value? .varName).isSome) = true ↔ r.IsTorn := by
    rw [hg.has .json (by decide), hg.value? .varName (by decide), Option.isSome_map,
      Bool.and_eq_true]
    rfl
  have hdry : g'.has .dry = r.dry := hg.has .dry (by decide)
  unfold commandOf outcome
  simp only [hsource]
  show (g.orElse .dest env.dest >>= _) = _
  rw [hdest]
  show ite _ _ _ = _
  simp only [htorn, hg.source, hg.dest, hg.format, hdry, hg.path (s := .ledger) (by decide),
    hg.path (s := .output) (by decide)]
  by_cases h : r.IsTorn
  · rw [if_pos h, if_pos h]
    rfl
  · rw [if_neg h, if_neg h]
    cases r.root? .source env.source with
    | none => rfl
    | some source => cases r.root? .dest env.dest <;> rfl

/-! ## Reading a request -/

/-- The level for the log file is looked for behind the command and then before it. -/
theorem level?_or_level? (hr : r.IsPlain) (hperm : (outer ++ inner).Perm r.items) :
    (Given.ofItems inner).level?.or (Given.ofItems outer).level? =
      (r.value? .logLevel).bind level? := by
  have hmem := setting_mem_iff (s := .logLevel) hperm
  have hboth := value?_or_value? (s := .logLevel) hperm
  unfold Given.level?
  rcases value?_ofItems_cases inner .logLevel with ⟨hnone, -⟩ | ⟨v, hsome, hinner⟩
  · rw [hnone, Option.none_or] at hboth
    rw [hnone, hboth]
    cases r.value? .logLevel <;> simp
  · -- a level before the command would not count, but there is none
    have hvalue := (hmem v).1 (.inr hinner)
    obtain ⟨level, hlevel⟩ := Option.isSome_iff_exists.1 ((hr _ _ hvalue).level rfl)
    rw [hsome, hvalue]
    simp [hlevel]

/-- The name of the command ends the options of the program. -/
theorem readArguments_run {p : Progress} (hp : p.isWaiting = false) (rest : List Argument) :
    readArguments .program p (bytes "run" :: rest) = .ok (p, some (.run, rest)) := by
  have hcommand : Scope.command? .program (bytes "run") = some .run := by decide +kernel
  have hhead : (bytes "run").head? ≠ some dash := by decide
  rw [readArguments, hp, hcommand]
  · rfl
  · intro h
    exact hhead (congrArg List.head? h)
  · intro _ h
    exact hhead (congrArg List.head? h)
  · intro _ _ h
    exact hhead (congrArg List.head? h)

theorem parse_eq_outcome (hr : r.IsPlain) (henv : env.IsPlain) {args : List Argument}
    (hargs : r.IsSpelt args) : parse env args = r.outcome env := by
  obtain ⟨outer, inner, before, behind, hperm, hglobal, hbefore, hbehind, rfl⟩ := hargs
  have honce : ((outer ++ inner).map Item.kind).Nodup :=
    (hperm.map Item.kind).nodup_iff.2 (nodup_items r)
  rw [List.map_append, List.nodup_append] at honce
  have houter : ∀ i ∈ outer, Scope.Takes .program i := fun i hi =>
    takes_program hr (hperm.mem_iff.1 (List.mem_append_left _ hi)) (hglobal i hi)
  have hinner : ∀ i ∈ inner, Scope.Takes .run i := fun i hi =>
    takes_run hr (hperm.mem_iff.1 (List.mem_append_right _ hi))
  -- the program's options, up to the name of the command
  obtain ⟨p, hp, hread⟩ := readArguments_items holds_start houter honce.1 hbefore
    (bytes "run" :: behind.flatten)
  rw [readArguments_run hp.isWaiting] at hread
  -- the options of the command
  obtain ⟨q, hq, hrest⟩ := readArguments_items holds_start hinner honce.2.1 hbehind []
  rw [List.append_nil, readArguments] at hrest
  rw [List.nil_append] at hp hq
  unfold parse
  rw [hread]
  show (readArguments .run .start behind.flatten >>= _) = _
  rw [hrest]
  show (q.settle >>= _) = _
  rw [hq.settle]
  show (commandOf env .run (.ofItems inner) >>= _) = _
  rw [commandOf_run henv hperm hglobal]
  cases houtcome : r.outcome env with
  | error refusal => rfl
  | ok i =>
    obtain ⟨-, source, dest, -, -, rfl⟩ := outcome_eq_ok.1 houtcome
    show (p.settle >>= _) = _
    rw [hp.settle]
    show Except.ok (Invocation.mk _ _ _) = _
    rw [has_or_has hperm, level?_or_level? hr hperm]
    rfl

/-- The order of the options does not count, nor their spelling, nor the side of the command on
which those that both take are given.  A root comes from its option, or else from the
environment. -/
theorem parse_orderless (hr : r.IsPlain) (henv : env.IsPlain) {args : List Argument}
    (hargs : r.IsSpelt args) :
    (∀ more, r.IsSpelt more → parse env more = parse env args) ∧
      ((∃ refusal, parse env args = .error refusal) ↔
        (r.value? .source = none ∧ env.source = none) ∨
          (r.value? .dest = none ∧ env.dest = none) ∨ r.IsTorn) ∧
      ∀ i, parse env args = .ok i → ∃ source dest,
        r.root? .source env.source = some source ∧ r.root? .dest env.dest = some dest ∧
          i = r.invocation source dest := by
  have houtcome := parse_eq_outcome hr henv hargs
  refine ⟨fun more hmore => ?_, ?_, fun i hi => ?_⟩
  · rw [houtcome, parse_eq_outcome hr henv hmore]
  · rw [houtcome, outcome_eq_error]
  · rw [houtcome] at hi
    exact (outcome_eq_ok.1 hi).2

/-- A request whose values look like a command and like an option with its value. -/
def busy : Request where
  value?
    | .source => some "run"
    | .dest => none
    | .ledger => some "ledger=x"
    | .output => some "a b.js"
    | .varName => some "photos"
    | .logLevel => some "WARN"
  json := false
  dry := true
  log := true

/-- Roots of which the request gives one itself. -/
def roots : Environment := ⟨some (bytes "raws"), some (bytes "edits")⟩

/-- The busy request with what can stand before the command there. -/
def early : List Argument :=
  ["--log", "--log-level=WARN", "run", "--source-dir", "run", "--ledger=ledger=x", "--output",
    "a b.js", "--var-name=photos", "--dry-run"].map bytes

/-- The busy request from its other end, behind the command, in the other spellings. -/
def late : List Argument :=
  ["run", "--dry-run", "--var-name", "photos", "--output=a b.js", "--ledger", "ledger=x",
    "--source-dir=run", "--log-level", "WARN", "--log"].map bytes

theorem isPlain_busy : busy.IsPlain := by
  intro s value hvalue
  cases s with
  | dest => cases hvalue
  | _ =>
    cases hvalue
    exact ⟨by decide, by decide +kernel, by decide +kernel⟩

theorem isSpelt_early : busy.IsSpelt early :=
  ⟨[.switch .log, .setting .logLevel "WARN"],
    [.setting .source "run", .setting .ledger "ledger=x", .setting .output "a b.js",
      .setting .varName "photos", .switch .dry], _, _, by decide +kernel,
    by rintro i (_ | ⟨_, _ | ⟨_, ⟨⟩⟩⟩) <;> rfl,
    .cons (.switch _) (.cons (.joined _ _) .nil),
    .cons (.apart _ _) (.cons (.joined _ _) (.cons (.apart _ _) (.cons (.joined _ _)
      (.cons (.switch _) .nil)))), by decide +kernel⟩

theorem isSpelt_late : busy.IsSpelt late :=
  ⟨[], [.switch .dry, .setting .varName "photos", .setting .output "a b.js",
      .setting .ledger "ledger=x", .setting .source "run", .setting .logLevel "WARN",
      .switch .log], [], _, by decide +kernel, by rintro i ⟨⟩, .nil,
    .cons (.switch _) (.cons (.apart _ _) (.cons (.joined _ _) (.cons (.apart _ _)
      (.cons (.joined _ _) (.cons (.apart _ _) (.cons (.switch _) .nil)))))), by decide +kernel⟩

theorem parse_orderless_busy :
    busy.IsPlain ∧ roots.IsPlain ∧ busy.IsSpelt early ∧ busy.IsSpelt late ∧
      parse roots early = .ok (busy.invocation (bytes "run") (bytes "edits")) ∧
      parse roots late = parse roots early := by
  have henv : roots.IsPlain := ⟨by decide +kernel, by decide +kernel⟩
  obtain ⟨hsame, herror, hok⟩ := parse_orderless isPlain_busy henv isSpelt_early
  refine ⟨isPlain_busy, henv, isSpelt_early, isSpelt_late, ?_, hsame _ isSpelt_late⟩
  cases hparse : parse roots early with
  | error refusal =>
    rcases herror.1 ⟨refusal, hparse⟩ with h | h | h
    · cases h.1
    · cases h.2
    · cases h.1
  | ok i =>
    obtain ⟨source, dest, hsource, hdest, rfl⟩ := hok i hparse
    cases hsource
    cases hdest
    rfl

end Request

end CommandLine

end PhotoTally
