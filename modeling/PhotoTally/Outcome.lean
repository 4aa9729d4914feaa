import PhotoTally.Failure

/-!
# Outcomes and events

A computation notes events on its way and ends in a value or a failure; `Outcome` holds both.  The
events noted before a failure stay noted.
-/

namespace PhotoTally

/-! ## Events -/

/-- How much an event matters, the most urgent first. -/
inductive Level where
  | error
  | warn
  | info
  | debug
  | trace
  deriving DecidableEq

namespace Level

def name : Level → String
  | error => "ERROR"
  | warn => "WARN"
  | info => "INFO"
  | debug => "DEBUG"
  | trace => "TRACE"

def rank : Level → Nat
  | error => 1
  | warn => 2
  | info => 3
  | debug => 4
  | trace => 5

end Level

/-- Something worth noting. -/
inductive Event where
  | ledgerMissing (path : Path)
  | ledgerLoaded (path : Path) (albums files : Nat)
  | duplicatesDropped (path : Path) (count : Nat)
  | scanning (root : Path)
  | albumCounted (year album : String) (edited deleted total : Nat)
  | dryRun (output ledger : Path)
  | bytesWritten (path : Path) (count : Nat)
  | reportWritten (path : Path)
  | folderMissing (path : Path)
  | danglingSkipped (cause : WalkFault)
  | vanishedSkipped (cause : WalkFault)
  | folderNameSkipped (path : Path)
  | fileNameSkipped (path : Path)
  deriving DecidableEq

namespace Event

def level : Event → Level
  | duplicatesDropped _ _ | folderNameSkipped _ | fileNameSkipped _ => .warn
  | ledgerMissing _ | ledgerLoaded _ _ _ | scanning _ | albumCounted _ _ _ _ _ | dryRun _ _
  | reportWritten _ => .info
  | bytesWritten _ _ | folderMissing _ | danglingSkipped _ | vanishedSkipped _ => .debug

def text : Event → String
  | ledgerMissing path => "No ledger at " ++ path.display ++ ", starting empty"
  | ledgerLoaded path albums files =>
    "Loaded ledger " ++ path.display ++ " (" ++ toString albums ++ " albums, " ++
      toString files ++ " files)"
  | duplicatesDropped path count =>
    "Ledger " ++ path.display ++ " contained " ++ toString count ++
      " duplicate entries, keeping first occurrences"
  | scanning root => "Scanning " ++ root.display
  | albumCounted year album edited deleted total =>
    year ++ "/" ++ album ++ ": " ++ toString edited ++ "/" ++ toString deleted ++ "/" ++
      toString total ++ " edited/deleted/total"
  | dryRun output ledger =>
    "Dry run, leaving " ++ output.display ++ " and " ++ ledger.display ++ " untouched"
  | bytesWritten path count => "Wrote " ++ toString count ++ " bytes to " ++ path.display
  | reportWritten path => "Wrote report to " ++ path.display
  | folderMissing path => path.display ++ " does not exist, treating as empty"
  | danglingSkipped cause => "Skipping dangling entry: " ++ cause.message
  | vanishedSkipped cause => "Skipping vanished entry: " ++ cause.message
  | folderNameSkipped path => "Skipping non UTF-8 directory name " ++ path.display
  | fileNameSkipped path => "Skipping non UTF-8 file name " ++ path.display

end Event

/-! ## Outcomes -/

/-- The events of a computation and what it ends in. -/
structure Outcome (α : Type) where
  events : List Event
  result : Except Failure α

namespace Outcome

variable {α β γ : Type}

/-- Ends in `f`. -/
def fail (f : Failure) : Outcome α := ⟨[], .error f⟩

/-- Notes an event. -/
def note (e : Event) : Outcome Unit := ⟨[e], .ok ()⟩

/-- Ends as `r` does. -/
def ofExcept (r : Except Failure α) : Outcome α := ⟨[], r⟩

def andThen (x : Outcome α) (f : α → Outcome β) : Outcome β :=
  match x.result with
  | .ok a => ⟨x.events ++ (f a).events, (f a).result⟩
  | .error e => ⟨x.events, .error e⟩

instance : Monad Outcome where
  pure a := ⟨[], .ok a⟩
  bind := andThen

@[simp] theorem result_pure (a : α) : (pure a : Outcome α).result = .ok a := rfl

@[simp] theorem result_fail (f : Failure) : (fail f : Outcome α).result = .error f := rfl

@[simp] theorem result_note (e : Event) : (note e).result = .ok () := rfl

@[simp] theorem events_pure (a : α) : (pure a : Outcome α).events = [] := rfl

theorem result_bind (x : Outcome α) (f : α → Outcome β) :
    (x >>= f).result = match x.result with
      | .ok a => (f a).result
      | .error e => .error e := by
  show (andThen x f).result = _
  unfold andThen
  cases x.result <;> rfl

theorem result_bind_eq_ok_iff {x : Outcome α} {f : α → Outcome β} {b : β} :
    (x >>= f).result = .ok b ↔ ∃ a, x.result = .ok a ∧ (f a).result = .ok b := by
  rw [result_bind]
  cases x.result <;> simp

instance : LawfulMonad Outcome :=
  LawfulMonad.mk' Outcome
    (by
      intro α x
      show andThen x _ = x
      obtain ⟨es, r⟩ := x
      cases r <;> simp [andThen])
    (by
      intro α β a f
      show andThen (pure a) f = f a
      simp [andThen, pure])
    (by
      intro α β γ x f g
      show andThen (andThen x f) g = andThen x fun a => andThen (f a) g
      obtain ⟨es, r⟩ := x
      cases r with
      | error e => rfl
      | ok a =>
        unfold andThen
        cases h : (f a).result <;> simp [h])

end Outcome

end PhotoTally
