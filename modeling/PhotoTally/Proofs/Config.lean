import PhotoTally.Proofs.FileSystem.Canonical
import PhotoTally.Proofs.FileSystem.Outline
import PhotoTally.Proofs.Report.RoundTrip
import PhotoTally.Proofs.Run.Endings

/-!
# What a configuration is accepted for

A configuration is accepted if both roots lead to folders and the variable is an identifier, and
else it is refused for the first of these that fails (`IsInOrder`, `Refuses`).  An accepted root is
the path of an open place (`exists_of_canonicalRoot`), which depends on nothing but the folder that
the root leads to, so roots may be spelt in any way and accepted roots are accepted again as they
are (`canonicalRoot_congr`, `canonicalRoot_again`).  Neither where the ledger is nor what any file
holds has a part in all this (`validate_withLedger`, `validate_outlined`).
-/

namespace PhotoTally.Config

variable {fs : FileSystem} {c c₂ valid valid₂ : Config} {root spelt : Path} {f : Failure}

/-! ## Identifiers -/

/-- A letter, `_` or `$`. -/
def IsNameStart (c : Char) : Prop :=
  ('A' ≤ c ∧ c ≤ 'Z') ∨ ('a' ≤ c ∧ c ≤ 'z') ∨ c = '_' ∨ c = '$'

/-- Whether a name has one of these first, and after it only these and digits. -/
def IsIdentifier (name : String) : Prop :=
  ∃ first rest, name.toList = first :: rest ∧ IsNameStart first ∧
    ∀ c ∈ rest, IsNameStart c ∨ '0' ≤ c ∧ c ≤ '9'

theorem isIdentifierStart_iff (c : Char) : isIdentifierStart c = true ↔ IsNameStart c := by
  have halpha : c.isAlpha = true ↔ c.isUpper = true ∨ c.isLower = true := by
    show (c.isUpper || c.isLower) = true ↔ _
    rw [Bool.or_eq_true]
  have hupper : c.isUpper = true ↔ 'A' ≤ c ∧ c ≤ 'Z' := decide_eq_true_iff
  have hlower : c.isLower = true ↔ 'a' ≤ c ∧ c ≤ 'z' := by
    show (decide ('a' ≤ c) && decide (c ≤ 'z')) = true ↔ _
    rw [Bool.and_eq_true, decide_eq_true_iff, decide_eq_true_iff]
  simp [isIdentifierStart, IsNameStart, halpha, hupper, hlower, or_assoc]

theorem isIdentifierRest_iff (c : Char) :
    isIdentifierRest c = true ↔ IsNameStart c ∨ '0' ≤ c ∧ c ≤ '9' := by
  have hdigit : c.isDigit = true ↔ '0' ≤ c ∧ c ≤ '9' := by
    show (decide ('0' ≤ c) && decide (c ≤ '9')) = true ↔ _
    rw [Bool.and_eq_true, decide_eq_true_iff, decide_eq_true_iff]
  simp [isIdentifierRest, isIdentifierStart_iff, hdigit]

theorem isIdentifier_iff (name : String) : isIdentifier name = true ↔ IsIdentifier name := by
  unfold isIdentifier IsIdentifier
  cases name.toList with
  | nil => simp
  | cons first rest => simp [isIdentifierStart_iff, isIdentifierRest_iff]

/-! ## The checks -/

/-- Whether a path leads to a folder. -/
def IsRoot (fs : FileSystem) (root : Path) : Prop :=
  ∃ spot mode, fs.stat root = .ok (spot, .folder mode)

/-- The failures by which a root is refused. -/
inductive RefusesRoot (fs : FileSystem) (root : Path) : Failure → Prop
  | missing {e : IoFault} (h : fs.stat root = .error e) : RefusesRoot fs root (.rootMissing root)
  | notFolder {spot : Spot} {n : Node} (h : fs.stat root = .ok (spot, n))
      (hn : n.isFolder = false) : RefusesRoot fs root (.rootNotFolder root)

/-- Whether two paths lead to one folder. -/
def SameFolder (fs : FileSystem) (root root₂ : Path) : Prop :=
  ∃ spot mode, fs.stat root = .ok (spot, .folder mode) ∧ fs.stat root₂ = .ok (spot, .folder mode)

/-- Whether everything in a configuration is in order. -/
structure IsInOrder (fs : FileSystem) (c : Config) : Prop where
  source : IsRoot fs c.source
  dest : IsRoot fs c.dest
  format : ∀ name, c.format = .script name → IsIdentifier name

/-- The failures by which a configuration is refused: that of the source root, else that of the
destination root, else that of the variable. -/
inductive Refuses (fs : FileSystem) (c : Config) : Failure → Prop
  | source {f : Failure} (h : RefusesRoot fs c.source f) : Refuses fs c f
  | dest {f : Failure} (hsource : IsRoot fs c.source) (h : RefusesRoot fs c.dest f) :
      Refuses fs c f
  | format {name : String} (hsource : IsRoot fs c.source) (hdest : IsRoot fs c.dest)
      (hformat : c.format = .script name) (h : ¬ IsIdentifier name) :
      Refuses fs c (.badVariable name)

theorem not_refusesRoot (h : IsRoot fs root) : ¬ RefusesRoot fs root f := by
  obtain ⟨spot, mode, hstat⟩ := h
  rintro (h | ⟨h, hnot⟩)
  · cases hstat.symm.trans h
  · cases hstat.symm.trans h
    cases hnot

theorem isRoot_iff : IsRoot fs root ↔ fs.pathIsFolder root = true := by
  unfold IsRoot FileSystem.pathIsFolder
  cases fs.stat root with
  | error e => simp [Except.toOption]
  | ok found =>
    obtain ⟨spot, n⟩ := found
    cases n <;> simp [Except.toOption, Node.isFolder]

theorem canonicalRoot_eq_ok_iff :
    canonicalRoot fs root = .ok spelt ↔ IsRoot fs root ∧ fs.canonical root = .ok spelt := by
  have hexists (h : fs.pathIsFolder root = true) : fs.pathExists root = true := by
    unfold FileSystem.pathIsFolder at h
    unfold FileSystem.pathExists
    exact Option.isSome_of_any h
  unfold canonicalRoot
  rw [isRoot_iff]
  by_cases hfolder : fs.pathIsFolder root = true
  · simp [hfolder, hexists hfolder, mapError_eq_ok_iff]
  · split_ifs <;> simp_all

section Root

variable (hroot : IsRoot fs root → ∃ spelt, fs.canonical root = .ok spelt)

include hroot

theorem exists_canonicalRoot_iff :
    (∃ spelt, canonicalRoot fs root = .ok spelt) ↔ IsRoot fs root := by
  simp only [canonicalRoot_eq_ok_iff, exists_and_left]
  exact and_iff_left_of_imp hroot

/-- A root is refused for nothing but that it leads to no folder. -/
theorem canonicalRoot_eq_error_iff : canonicalRoot fs root = .error f ↔ RefusesRoot fs root f := by
  cases hstat : fs.stat root with
  | error e =>
    have hmissing : canonicalRoot fs root = .error (.rootMissing root) := by
      simp [canonicalRoot, FileSystem.pathExists, hstat, Except.toOption]
    rw [hmissing]
    constructor
    · intro h
      obtain rfl := Except.error.inj h
      exact .missing hstat
    · rintro (h | h)
      · rfl
      · cases hstat.symm.trans h
  | ok found =>
    obtain ⟨spot, n⟩ := found
    cases hn : n.isFolder with
    | false =>
      have hnot : canonicalRoot fs root = .error (.rootNotFolder root) := by
        simp [canonicalRoot, FileSystem.pathExists, FileSystem.pathIsFolder, hstat, Except.toOption,
          hn]
      rw [hnot]
      constructor
      · intro h
        obtain rfl := Except.error.inj h
        exact .notFolder hstat hn
      · rintro (h | h)
        · cases hstat.symm.trans h
        · rfl
    | true =>
      obtain ⟨mode, rfl⟩ : ∃ mode, n = .folder mode := by cases n <;> simp_all [Node.isFolder]
      have hfolder : IsRoot fs root := ⟨spot, mode, hstat⟩
      obtain ⟨spelt, hspelt⟩ := (exists_canonicalRoot_iff hroot).2 hfolder
      rw [hspelt]
      exact iff_of_false (by simp) (not_refusesRoot hfolder)

end Root

theorem checkFormat_eq_ok_iff {format : OutputFormat} :
    checkFormat format = .ok () ↔ ∀ name, format = .script name → IsIdentifier name := by
  cases format with
  | json => simp [checkFormat]
  | script name => simp [checkFormat, ← isIdentifier_iff]

theorem checkFormat_eq_error_iff {format : OutputFormat} :
    checkFormat format = .error f ↔
      ∃ name, format = .script name ∧ ¬ IsIdentifier name ∧ f = .badVariable name := by
  cases format with
  | json => simp [checkFormat]
  | script name =>
    by_cases h : isIdentifier name <;>
      simp [checkFormat, ← isIdentifier_iff, h, @eq_comm _ _ f]

/-- Whether the roots that lead to folders have canonical paths. -/
def HasCanonicalRoots (fs : FileSystem) (c : Config) : Prop :=
  ∀ root ∈ [c.source, c.dest], fs.pathIsFolder root = true → ∃ p, fs.canonical root = .ok p

theorem hasCanonicalRoots {source dest : Path} (hsource : fs.canonical c.source = .ok source)
    (hdest : fs.canonical c.dest = .ok dest) : c.HasCanonicalRoots fs := by
  intro root hroot _
  rcases List.mem_pair.1 hroot with rfl | rfl
  · exact ⟨source, hsource⟩
  · exact ⟨dest, hdest⟩

section Roots

variable (hroots : c.HasCanonicalRoots fs)

include hroots

theorem exists_canonical (root : Path) (hmem : root ∈ [c.source, c.dest]) (h : IsRoot fs root) :
    ∃ spelt, fs.canonical root = .ok spelt :=
  hroots root hmem (isRoot_iff.1 h)

/-- A configuration is accepted if everything in it is in order. -/
theorem exists_valid_iff : (∃ valid, c.validate fs = .ok valid) ↔ IsInOrder fs c := by
  have hsource := exists_canonicalRoot_iff (exists_canonical hroots c.source (by simp))
  have hdest := exists_canonicalRoot_iff (exists_canonical hroots c.dest (by simp))
  constructor
  · rintro ⟨valid, hvalid⟩
    obtain ⟨source, dest, hs, hd, hformat, -⟩ := validate_eq_ok_iff.1 hvalid
    exact ⟨hsource.1 ⟨source, hs⟩, hdest.1 ⟨dest, hd⟩, checkFormat_eq_ok_iff.1 hformat⟩
  · intro h
    obtain ⟨source, hs⟩ := hsource.2 h.source
    obtain ⟨dest, hd⟩ := hdest.2 h.dest
    exact ⟨_, validate_eq_ok_iff.2 ⟨source, dest, hs, hd, checkFormat_eq_ok_iff.2 h.format, rfl⟩⟩

/-- A configuration is refused for the first check that fails. -/
theorem validate_eq_error_iff : c.validate fs = .error f ↔ Refuses fs c f := by
  have hsource := exists_canonical hroots c.source (by simp)
  have hdest := exists_canonical hroots c.dest (by simp)
  unfold validate
  constructor
  · intro h
    obtain hs | ⟨source, hs, h⟩ := bind_eq_error_iff.1 h
    · exact .source ((canonicalRoot_eq_error_iff hsource).1 hs)
    have hs := (canonicalRoot_eq_ok_iff.1 hs).1
    obtain hd | ⟨dest, hd, h⟩ := bind_eq_error_iff.1 h
    · exact .dest hs ((canonicalRoot_eq_error_iff hdest).1 hd)
    have hd := (canonicalRoot_eq_ok_iff.1 hd).1
    obtain hformat | ⟨_, -, h⟩ := bind_eq_error_iff.1 h
    · obtain ⟨name, hname, hbad, rfl⟩ := checkFormat_eq_error_iff.1 hformat
      exact .format hs hd hname hbad
    · cases h
  · intro h
    cases h with
    | source h => exact bind_eq_error_iff.2 (.inl ((canonicalRoot_eq_error_iff hsource).2 h))
    | dest hs h =>
      obtain ⟨source, hs⟩ := (exists_canonicalRoot_iff hsource).2 hs
      refine bind_eq_error_iff.2 (.inr ⟨source, hs, bind_eq_error_iff.2 (.inl ?_)⟩)
      exact (canonicalRoot_eq_error_iff hdest).2 h
    | format hs hd hname hbad =>
      obtain ⟨source, hs⟩ := (exists_canonicalRoot_iff hsource).2 hs
      obtain ⟨dest, hd⟩ := (exists_canonicalRoot_iff hdest).2 hd
      refine bind_eq_error_iff.2 (.inr ⟨source, hs, bind_eq_error_iff.2 (.inr ⟨dest, hd, ?_⟩)⟩)
      exact bind_eq_error_iff.2 (.inl (checkFormat_eq_error_iff.2 ⟨_, hname, hbad, rfl⟩))

/-- A configuration is refused for a reason of its own. -/
theorem isConfiguration_of_validate (h : c.validate fs = .error f) : f.isConfiguration = true := by
  have hroot {root : Path} (h : RefusesRoot fs root f) : f.isConfiguration = true := by
    cases h <;> rfl
  cases (validate_eq_error_iff hroots).1 h with
  | source h => exact hroot h
  | dest _ h => exact hroot h
  | format => rfl

end Roots

/-- What files hold has no part in the validation. -/
theorem validate_outlined (fs : FileSystem) (c : Config) :
    c.validate fs.outlined = c.validate fs := by
  unfold validate canonicalRoot
  simp only [FileSystem.pathExists_outlined, FileSystem.pathIsFolder_outlined,
    FileSystem.canonical_outlined]

/-- Where the ledger is has no part in the validation. -/
theorem validate_withLedger (fs : FileSystem) (c : Config) (ledger : Path) :
    ({ c with ledger } : Config).validate fs =
      (c.validate fs).map fun valid => { valid with ledger } := by
  unfold validate
  cases canonicalRoot fs c.source with
  | error f => rfl
  | ok source =>
    cases canonicalRoot fs c.dest with
    | error f => rfl
    | ok dest => cases checkFormat c.format <;> rfl

/-! ## The spelling of accepted roots -/

/-- An accepted root is the path of the open place that the root leads to. -/
theorem exists_of_canonicalRoot (htree : fs.IsTree) (h : canonicalRoot fs root = .ok spelt) :
    ∃ p mode, spelt = p.path ∧ fs.IsOpen p ∧ fs.stat root = .ok (some p, .folder mode) := by
  obtain ⟨⟨spot, mode, hstat⟩, hcanonical⟩ := canonicalRoot_eq_ok_iff.1 h
  obtain ⟨p, rfl, hopen, hfollow⟩ := FileSystem.exists_of_canonical htree hcanonical
  obtain rfl := Except.ok.inj ((FileSystem.follow_of_stat hstat).symm.trans hfollow)
  exact ⟨p, mode, rfl, hopen, hstat⟩

section Spelt

variable (htree : fs.IsTree) (h : canonicalRoot fs root = .ok spelt)

include htree h

theorem isCanonical_of_canonicalRoot : fs.IsCanonical spelt := by
  obtain ⟨p, mode, rfl, hopen, hstat⟩ := exists_of_canonicalRoot htree h
  exact FileSystem.isCanonical_path hopen (FileSystem.find?_of_stat hstat)

/-- An accepted root leads where it led before. -/
theorem sameFolder_of_canonicalRoot : SameFolder fs root spelt := by
  obtain ⟨p, mode, rfl, hopen, hstat⟩ := exists_of_canonicalRoot htree h
  exact ⟨some p, mode, hstat, FileSystem.look_path rfl hopen (FileSystem.find?_of_stat hstat)⟩

/-- An accepted root is accepted again as it is. -/
theorem canonicalRoot_again : canonicalRoot fs spelt = .ok spelt := by
  obtain ⟨spot, mode, -, hagain⟩ := sameFolder_of_canonicalRoot htree h
  obtain ⟨p, _, rfl, hopen, hstat⟩ := exists_of_canonicalRoot htree h
  have hfolder := FileSystem.isFolder_of_find? (FileSystem.find?_of_stat hstat)
  exact canonicalRoot_eq_ok_iff.2 ⟨⟨spot, mode, hagain⟩, FileSystem.canonical_path hopen hfolder⟩

/-- Accepted roots that lead to the same folder are the same. -/
theorem canonicalRoot_congr {root₂ spelt₂ : Path} (hsame : SameFolder fs root root₂)
    (h₂ : canonicalRoot fs root₂ = .ok spelt₂) : spelt₂ = spelt := by
  obtain ⟨spot, mode, hroot, hroot₂⟩ := hsame
  obtain ⟨p, _, rfl, -, hp⟩ := exists_of_canonicalRoot htree h
  obtain ⟨p₂, _, rfl, -, hp₂⟩ := exists_of_canonicalRoot htree h₂
  cases hroot.symm.trans hp
  cases hroot₂.symm.trans hp₂
  rfl

end Spelt

/-- Roots that lead to the same folder and have canonical paths are accepted as the same. -/
theorem canonicalRoot_eq {root₂ : Path} (htree : fs.IsTree) (hsame : SameFolder fs root root₂)
    (hroot : IsRoot fs root → ∃ spelt, fs.canonical root = .ok spelt)
    (hroot₂ : IsRoot fs root₂ → ∃ spelt, fs.canonical root₂ = .ok spelt) :
    canonicalRoot fs root₂ = canonicalRoot fs root := by
  obtain ⟨spot, mode, hstat, hstat₂⟩ := id hsame
  obtain ⟨spelt, h⟩ := (exists_canonicalRoot_iff hroot).2 ⟨spot, mode, hstat⟩
  obtain ⟨spelt₂, h₂⟩ := (exists_canonicalRoot_iff hroot₂).2 ⟨spot, mode, hstat₂⟩
  rw [h, h₂, canonicalRoot_congr htree h hsame h₂]

/-- Whether two configurations differ in the spelling of their roots alone. -/
structure IsRespelling (fs : FileSystem) (c c₂ : Config) : Prop where
  source : SameFolder fs c.source c₂.source
  dest : SameFolder fs c.dest c₂.dest
  ledger : c₂.ledger = c.ledger
  output : c₂.output = c.output
  format : c₂.format = c.format

theorem validate_congr (htree : fs.IsTree) (hsame : IsRespelling fs c c₂)
    (h : c.validate fs = .ok valid) (h₂ : c₂.validate fs = .ok valid₂) : valid₂ = valid := by
  obtain ⟨source, dest, hs, hd, -, rfl⟩ := validate_eq_ok_iff.1 h
  obtain ⟨source₂, dest₂, hs₂, hd₂, -, rfl⟩ := validate_eq_ok_iff.1 h₂
  obtain rfl := canonicalRoot_congr htree hs hsame.source hs₂
  obtain rfl := canonicalRoot_congr htree hd hsame.dest hd₂
  rw [hsame.ledger, hsame.output, hsame.format]

/-- If their roots have canonical paths, configurations that differ in the spelling of the roots
alone are both accepted or both refused for the variable. -/
theorem validate_eq (htree : fs.IsTree) (hsame : IsRespelling fs c c₂)
    (hroots : c.HasCanonicalRoots fs) (hroots₂ : c₂.HasCanonicalRoots fs) :
    c₂.validate fs = c.validate fs := by
  have hsource : canonicalRoot fs c₂.source = canonicalRoot fs c.source :=
    canonicalRoot_eq htree hsame.source (exists_canonical hroots _ (by simp))
      (exists_canonical hroots₂ _ (by simp))
  have hdest : canonicalRoot fs c₂.dest = canonicalRoot fs c.dest :=
    canonicalRoot_eq htree hsame.dest (exists_canonical hroots _ (by simp))
      (exists_canonical hroots₂ _ (by simp))
  unfold validate
  rw [hsource, hdest, hsame.ledger, hsame.output, hsame.format]

/-! ## Validation -/

/-- If the roots that lead to folders have canonical paths, a configuration is accepted just when
everything in it is in order, and else refused for the first check that fails.  What is accepted has
roots from the root of the file system, without dots and links, that lead to the same folders, is
otherwise as it was, and is accepted again as it is.  Configurations that differ in the spelling of
their roots alone are accepted as the same, and a run makes no difference between them. -/
theorem validate_exact (fs : FileSystem) (c : Config) :
    (c.HasCanonicalRoots fs →
      ((∃ valid, c.validate fs = .ok valid) ↔ IsInOrder fs c) ∧
        ∀ f, c.validate fs = .error f ↔ Refuses fs c f) ∧
    (fs.IsTree →
      (∀ valid, c.validate fs = .ok valid →
        IsRespelling fs c valid ∧ fs.IsCanonical valid.source ∧ fs.IsCanonical valid.dest ∧
          valid.validate fs = .ok valid) ∧
      ∀ c₂, IsRespelling fs c c₂ →
        (∀ valid valid₂, c.validate fs = .ok valid → c₂.validate fs = .ok valid₂ →
          valid₂ = valid ∧ ∀ l, Reconcile.run fs valid₂ l = Reconcile.run fs valid l) ∧
        (c.HasCanonicalRoots fs → c₂.HasCanonicalRoots fs →
          c₂.validate fs = c.validate fs)) := by
  refine ⟨fun hroots => ?_, fun htree => ⟨fun valid hvalid => ?_, fun c₂ hsame => ?_⟩⟩
  · exact ⟨exists_valid_iff hroots, fun f => validate_eq_error_iff hroots⟩
  · obtain ⟨source, dest, hs, hd, hformat, rfl⟩ := validate_eq_ok_iff.1 hvalid
    refine ⟨⟨sameFolder_of_canonicalRoot htree hs, sameFolder_of_canonicalRoot htree hd, rfl, rfl,
      rfl⟩, isCanonical_of_canonicalRoot htree hs, isCanonical_of_canonicalRoot htree hd, ?_⟩
    exact validate_eq_ok_iff.2
      ⟨source, dest, canonicalRoot_again htree hs, canonicalRoot_again htree hd, hformat, rfl⟩
  · refine ⟨fun valid valid₂ h h₂ => ?_, validate_eq htree hsame⟩
    obtain rfl := validate_congr htree hsame h h₂
    exact ⟨rfl, fun l => rfl⟩

/-- The two roots, and a link to the first of them. -/
def linkedRaws : FileSystem :=
  Run.twoRoots.put (Path.ofString "/in").place (.link (.ofString "raws"))

/-- A configuration with canonical roots. -/
def straight : Config := Run.overTwoRoots "counts.json" "data.js"

/-- The same roots by way of the link, and there and back. -/
def roundabout : Config :=
  { straight with source := .ofString "in/.", dest := .ofString "raws/../edits/" }

theorem validate_exact_roundabout :
    linkedRaws.IsTree ∧ roundabout.HasCanonicalRoots linkedRaws ∧
      straight.HasCanonicalRoots linkedRaws ∧ IsRespelling linkedRaws roundabout straight ∧
      IsInOrder linkedRaws roundabout ∧ roundabout.validate linkedRaws = .ok straight ∧
      linkedRaws.IsCanonical straight.source ∧
      straight.validate linkedRaws = roundabout.validate linkedRaws ∧
      ¬ Refuses linkedRaws roundabout (.badVariable "data") := by
  have hruns : linkedRaws.IsTree ∧
      linkedRaws.canonical roundabout.source = .ok straight.source ∧
      linkedRaws.canonical roundabout.dest = .ok straight.dest ∧
      linkedRaws.canonical straight.source = .ok straight.source ∧
      linkedRaws.canonical straight.dest = .ok straight.dest ∧
      roundabout.validate linkedRaws = .ok straight := by
    decide +kernel
  obtain ⟨htree, hsource, hdest, hsource₂, hdest₂, hvalid⟩ := hruns
  have hroots := hasCanonicalRoots hsource hdest
  have hroots₂ := hasCanonicalRoots hsource₂ hdest₂
  obtain ⟨hexact, hspelt⟩ := validate_exact linkedRaws roundabout
  obtain ⟨hagain, hcongr⟩ := hspelt htree
  obtain ⟨horder, hrefuses⟩ := hexact hroots
  obtain ⟨hsame, hcanonical, -, -⟩ := hagain straight hvalid
  refine ⟨htree, hroots, hroots₂, hsame, horder.1 ⟨_, hvalid⟩, hvalid, hcanonical,
    (hcongr straight hsame).2 hroots hroots₂, fun h => ?_⟩
  cases hvalid.symm.trans ((hrefuses _).2 h)

end PhotoTally.Config
