import PhotoTally.Program
import PhotoTally.Proofs.Config
import PhotoTally.Proofs.Run.Failing

/-!
# How the program reports a failure

`EndsAs` lists the three ways in which a run without a log can end: its configuration is refused, it
fails at work, or it succeeds.  Only a refused configuration is announced as such, and then nothing
was read of the ledger and nothing was written (`configuration_apart`).
-/

namespace PhotoTally

theorem Outcome.events_map {α β : Type} (f : α → β) (x : Outcome α) :
    (f <$> x).events = x.events := by
  show (Outcome.andThen x fun a => pure (f a)).events = _
  unfold Outcome.andThen
  cases x.result <;> simp

namespace Program

variable {fs fs' : FileSystem} {c : Config} {dry : Bool} {f : Failure} {i : Invocation}
  {faults : Run.Faults}

/-! ## Texts -/

/-- The lines of the warnings among the events. -/
def warningLines (events : List Event) : String :=
  String.join ((events.filter fun e => e.level = .warn).map eventLine)

theorem eventLines_warn (events : List Event) :
    eventLines (some .warn) events = warningLines events := by
  have hlevel : (fun e : Event => decide (e.level.rank ≤ Level.warn.rank)) =
      fun e => decide (e.level = .warn) := by
    funext e
    cases e <;> rfl
  simp only [eventLines, warningLines, hlevel]

/-- The first line of the text of a refused configuration. -/
def announcement : List Char := "Error: Invalid configuration\n".toList

/-- Whether the error output begins with the announcement of a refused configuration. -/
def Ending.Announces (e : Ending) : Prop := announcement <+: e.errors.toList

theorem exists_toList_errorText (message : String) (causes : List String) :
    ∃ rest, (errorText message causes).toList =
      "Error: ".toList ++ message.toList ++ '\n' :: rest := by
  unfold errorText
  refine (exists_congr fun _ => Eq.congr_left String.toList_ofList).2 ?_
  by_cases hcauses : causes = []
  · rw [if_pos hcauses]
    exact ⟨[], by rw [List.append_nil]⟩
  · rw [if_neg hcauses]
    exact ⟨_, by rw [List.append_assoc, List.append_assoc]; rfl⟩

/-- How the messages of failures at work begin. -/
def workBeginnings : List String :=
  ["I/O error at ", "Directory walker error: ", "Malformed ledger ", "Failed to persist "]

theorem exists_beginning (h : f.IsOfWork) :
    ∃ start ∈ workBeginnings, ∃ rest, f.message = start ++ rest := by
  have hfour (a b c d : String) : a ++ b ++ c ++ d = a ++ (b ++ (c ++ d)) := by
    rw [String.append_assoc, String.append_assoc]
  unfold workBeginnings
  cases f with
  | rootMissing _ => cases h
  | rootNotFolder _ => cases h
  | badVariable _ => cases h
  | io path cause => exact ⟨_, .head _, _, hfour _ _ _ _⟩
  | walk cause => exact ⟨_, .tail _ (.head _), _, rfl⟩
  | badLedger path cause => exact ⟨_, .tail _ (.tail _ (.head _)), _, hfour _ _ _ _⟩
  | replace path cause => exact ⟨_, .tail _ (.tail _ (.tail _ (.head _))), _, hfour _ _ _ _⟩

/-- The announcement and the text of a failure at work differ in their first nine characters. -/
theorem not_announced (h : f.IsOfWork) (causes : List String) :
    ¬ announcement <+: (errorText f.message causes).toList := by
  have hdiffer : ∀ start ∈ workBeginnings, 9 ≤ ("Error: ".toList ++ start.toList).length ∧
      announcement.take 9 ≠ ("Error: ".toList ++ start.toList).take 9 := by
    decide +kernel
  obtain ⟨start, hstart, rest, hmessage⟩ := exists_beginning h
  obtain ⟨more, htext⟩ := exists_toList_errorText f.message causes
  obtain ⟨hlength, hne⟩ := hdiffer start hstart
  rintro ⟨tail, htail⟩
  rw [htext, hmessage, String.toList_append, ← List.append_assoc, List.append_assoc] at htail
  have htake := congrArg (List.take 9) htail
  rw [List.take_append_of_le_length hlength,
    List.take_append_of_le_length (by decide +kernel)] at htake
  exact hne htake

theorem announced (causes : List String) :
    announcement <+: (errorText "Invalid configuration" causes).toList := by
  obtain ⟨rest, htext⟩ := exists_toList_errorText "Invalid configuration" causes
  have hfirst : announcement =
      "Error: ".toList ++ "Invalid configuration".toList ++ ['\n'] := by
    decide +kernel
  rw [htext, hfirst]
  exact ⟨rest, List.append_assoc _ _ _⟩

/-! ## Endings -/

/-- The ways in which a run without a log ends.  Besides warnings it prints nothing to the output
unless it succeeds. -/
inductive EndsAs (fs : FileSystem) (c : Config) (dry : Bool) (faults : Run.Faults) :
    Ending → Prop where
  | refused {f : Failure} : c.validate fs = .error f →
      EndsAs fs c dry faults ⟨1, "", failureText f, fs⟩
  | failed {valid : Config} {f : Failure} : c.validate fs = .ok valid →
      (Run.execute fs valid dry faults).2.result = .error f → f.IsOfWork →
      EndsAs fs c dry faults ⟨1, warningLines (Run.execute fs valid dry faults).2.events,
        errorText f.message f.causes, (Run.execute fs valid dry faults).1⟩
  | done {valid : Config} {r : Report} : c.validate fs = .ok valid →
      (Run.execute fs valid dry faults).2.result = .ok r →
      EndsAs fs c dry faults
        ⟨0, warningLines (Run.execute fs valid dry faults).2.events ++ runText valid dry r, "",
          (Run.execute fs valid dry faults).1⟩

theorem run_of_unlogged (faults : Run.Faults) (hcommand : i.command = .run c dry)
    (hlog : i.log = false) :
    run fs i faults =
      conclude (carryOut fs faults (.run c dry)).1 (carryOut fs faults (.run c dry)).2 := by
  unfold run
  rw [hlog, if_neg (by simp), hcommand]

/-- What a refused configuration leaves behind. -/
theorem run_of_refused (faults : Run.Faults) (hcommand : i.command = .run c dry)
    (hlog : i.log = false) (hvalid : c.validate fs = .error f) :
    run fs i faults = ⟨1, "", failureText f, fs⟩ := by
  rw [run_of_unlogged faults hcommand hlog]
  simp only [carryOut, hvalid]
  rfl

theorem endsAs_run (faults : Run.Faults) (hcommand : i.command = .run c dry)
    (hlog : i.log = false) : EndsAs fs c dry faults (run fs i faults) := by
  cases hvalid : c.validate fs with
  | error f =>
    rw [run_of_refused faults hcommand hlog hvalid]
    exact .refused hvalid
  | ok valid =>
    have hcarry : carryOut fs faults (.run c dry) = ((Run.execute fs valid dry faults).1,
        runText valid dry <$> (Run.execute fs valid dry faults).2) := by
      simp only [carryOut, hvalid]
    rw [run_of_unlogged faults hcommand hlog, hcarry]
    unfold conclude
    rw [Outcome.events_map, Outcome.result_map, eventLines_warn]
    cases hresult : (Run.execute fs valid dry faults).2.result with
    | error f =>
      have hwork : f.IsOfWork := Run.execute_failsBy fs valid dry faults f hresult
      have htext : failureText f = errorText f.message f.causes :=
        if_neg (ne_true_of_eq_false hwork)
      simp only [Except.map, htext]
      exact .failed hvalid hresult hwork
    | ok r => exact .done hvalid hresult

theorem failureText_of_validate (hroots : c.HasCanonicalRoots fs)
    (hvalid : c.validate fs = .error f) :
    failureText f = errorText "Invalid configuration" (f.message :: f.causes) :=
  if_pos (Config.isConfiguration_of_validate hroots hvalid)

/-- The announcement tells whether the configuration was refused. -/
theorem EndsAs.announces_iff {e : Ending} (h : EndsAs fs c dry faults e)
    (hroots : c.HasCanonicalRoots fs) : e.Announces ↔ ∃ f, c.validate fs = .error f := by
  have hnone {valid : Config} (hvalid : c.validate fs = .ok valid) :
      ¬ ∃ f, c.validate fs = .error f := by
    rintro ⟨f, herror⟩
    rw [hvalid] at herror
    cases herror
  cases h with
  | refused hvalid =>
    refine iff_of_true ?_ ⟨_, hvalid⟩
    unfold Ending.Announces
    rw [failureText_of_validate hroots hvalid]
    exact announced _
  | failed hvalid _ hwork => exact iff_of_false (not_announced hwork _) (hnone hvalid)
  | done hvalid _ =>
    refine iff_of_false ?_ (hnone hvalid)
    rintro ⟨tail, htail⟩
    cases htail

/-- A refused configuration is refused alike wherever the ledger is and whatever files hold. -/
theorem run_of_refused_elsewhere {j : Invocation} {ledger : Path} (faults : Run.Faults)
    (hvalid : c.validate fs = .error f) (hsame : fs'.outlined = fs.outlined)
    (hcommand : j.command = .run { c with ledger } dry) (hlog : j.log = false) :
    run fs' j faults = ⟨1, "", failureText f, fs'⟩ := by
  refine run_of_refused faults hcommand hlog ?_
  rw [Config.validate_withLedger, map_eq_error_iff, ← Config.validate_outlined, hsame,
    Config.validate_outlined, hvalid]

/-- A configuration is refused for reasons of its own only, if folders that can be reached have
canonical paths, and nothing else fails for such a reason.  A run without a log that is refused, or
fails at work, ends with an exit code that says so, tells the failure and prints nothing else but
warnings.  It announces a refused configuration exactly if it is one; then it has changed nothing,
and it would have ended alike wherever the ledger were and whatever files held. -/
theorem configuration_apart (fs : FileSystem) :
    (∀ c : Config, c.HasCanonicalRoots fs → ∀ f, c.validate fs = .error f →
      f.isConfiguration = true) ∧
    WorkFails fs ∧
    ∀ env args faults i c dry, CommandLine.parse env args = .ok i → i.command = .run c dry →
      i.log = false → ∃ e, invoke fs env args faults = .ok e ∧ EndsAs fs c dry faults e ∧
        (c.HasCanonicalRoots fs → (e.Announces ↔ ∃ f, c.validate fs = .error f)) ∧
        ∀ f, c.validate fs = .error f →
          e = ⟨1, "", failureText f, fs⟩ ∧
          (c.HasCanonicalRoots fs →
            failureText f = errorText "Invalid configuration" (f.message :: f.causes)) ∧
          ∀ fs' ledger j later, fs'.outlined = fs.outlined →
            j.command = .run { c with ledger } dry → j.log = false →
            run fs' j later = { e with files := fs' } := by
  refine ⟨fun c hroots f => Config.isConfiguration_of_validate hroots, workFails fs, ?_⟩
  intro env args faults i c dry hparse hcommand hlog
  have hends : EndsAs fs c dry faults (run fs i faults) := endsAs_run faults hcommand hlog
  have hinvoke : invoke fs env args faults = .ok (run fs i faults) := by
    unfold invoke
    rw [hparse]
    rfl
  refine ⟨run fs i faults, hinvoke, hends, hends.announces_iff, fun f hvalid => ?_⟩
  rw [run_of_refused faults hcommand hlog hvalid]
  exact ⟨rfl, fun hroots => failureText_of_validate hroots hvalid,
    fun fs' ledger j later hsame hledger hunlogged =>
      run_of_refused_elsewhere later hvalid hsame hledger hunlogged⟩

/-- A command line whose source root is missing. -/
def missingRoot : List Argument :=
  ["run", "--source-dir", "/nope", "--dest-dir", "/edits"].map Text.bytes

/-- What it asks for. -/
def overMissingRoot : Config where
  source := .ofString "/nope"
  dest := .ofString "/edits"
  ledger := Config.defaultLedger
  output := Config.defaultOutput
  format := .script Config.defaultVariable

theorem configuration_apart_missingRoot :
    ∃ e, invoke Run.twoRoots ⟨none, none⟩ missingRoot Run.noFaults = .ok e ∧ e.Announces ∧
      e = ⟨1, "", errorText "Invalid configuration" ["Path not found: /nope"], Run.twoRoots⟩ := by
  have hruns : CommandLine.parse ⟨none, none⟩ missingRoot =
        .ok ⟨.run overMissingRoot false, false, some .debug⟩ ∧
      overMissingRoot.validate Run.twoRoots = .error (.rootMissing (.ofString "/nope")) ∧
      Run.twoRoots.pathIsFolder (.ofString "/nope") = false ∧
      Run.twoRoots.canonical (.ofString "/edits") = .ok (.ofString "/edits") ∧
      (Failure.rootMissing (.ofString "/nope")).message = "Path not found: /nope" := by
    decide +kernel
  obtain ⟨hparse, hvalid, hmissing, hcanonical, hmessage⟩ := hruns
  have hroots : overMissingRoot.HasCanonicalRoots Run.twoRoots := by
    intro root hroot hfolder
    rcases List.mem_pair.1 hroot with rfl | rfl
    · exact absurd (hmissing.symm.trans hfolder) (by simp)
    · exact ⟨_, hcanonical⟩
  obtain ⟨e, hinvoke, -, hannounces, hrefused⟩ :=
    (configuration_apart Run.twoRoots).2.2 _ _ _ _ _ _ hparse rfl rfl
  obtain ⟨hending, htext, -⟩ := hrefused _ hvalid
  rw [htext hroots] at hending
  exact ⟨e, hinvoke, (hannounces hroots).2 ⟨_, hvalid⟩, hending.trans (by rw [hmessage]; rfl)⟩

/-- A run whose ledger is a folder fails at work. -/
example :
    ((invoke Run.twoRoots ⟨none, none⟩
        (["run", "--source-dir", "/raws", "--dest-dir", "/edits", "--ledger", "/raws"].map
          Text.bytes) Run.noFaults).toOption.map fun e => (e.exitCode, e.output, e.errors)) =
      some (1, "", "Error: I/O error at /raws: Is a directory (os error 21)\n\n" ++
        "Caused by:\n    Is a directory (os error 21)\n") := by
  decide +kernel

end Program

end PhotoTally
