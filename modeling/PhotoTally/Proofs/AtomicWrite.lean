import PhotoTally.AtomicWrite
import PhotoTally.Proofs.FileSystem.Change
import PhotoTally.Proofs.FileSystem.Spelling
import PhotoTally.Proofs.Outcome

/-!
# What a write leaves behind

`Course` lists the courses that a write can take, one for each step at which it can fail, and
`course_stages` says that there are no others.  So a write that fails leaves the file system as it
was (`write_of_error`), and one that succeeds, whatever faults could have been met, changes the one
place that its target names (`write_of_ok`).  What was written is what the target leads to
from then on (`stat_put_of_isDirect`), unless the way to the target goes through the very place that
it names: then nothing is reached any more (`stat_put_of_not_isDirect`).  A target that led to a
text before, or to nothing, is direct (`isLegible_of_readText`, `IsLegible.isDirect`).
-/

namespace PhotoTally.AtomicWrite

variable {fs : FileSystem} {target : Path} {contents : ByteArray} {place temp : Place}
  {faults : Faults}

/-! ## The temporary file -/

/-- The name of a free place is one of those that are tried, and not the one to avoid. -/
theorem exists_of_freePlace? {folder : Place} {avoid : List UInt8} {fuel k : Nat}
    (h : freePlace? fs folder avoid fuel k = some temp) :
    ∃ j < k + fuel, temp = temporaryPlace folder j ∧ fs.find? temp = none ∧
      temporaryName j ≠ avoid := by
  induction fuel generalizing k with
  | zero => cases h
  | succ fuel ih =>
    unfold freePlace? at h
    split_ifs at h with hfree
    · rw [Bool.and_eq_true, Option.isNone_iff_eq_none, decide_eq_true_eq] at hfree
      obtain rfl := Option.some.inj h
      exact ⟨k, by omega, rfl, hfree.1, hfree.2⟩
    · obtain ⟨j, hj, hfound⟩ := ih h
      exact ⟨j, by omega, hfound⟩

/-- The temporary file is made where nothing is, in the folder that the spelling of the target's
folder from the root leads to, and under another name than the target's. -/
theorem exists_of_temporary (h : temporary fs target = .ok temp) :
    ∃ spelt folder node k, fs.absolute target.folder = .ok spelt ∧
      fs.stat spelt = .ok (some folder, node) ∧ k < attempts ∧ temp = temporaryPlace folder k ∧
      fs.find? temp = none ∧ temporaryName k ≠ lastSegment target := by
  unfold temporary at h
  split at h
  · cases h
  · rename_i spelt hspelt
    have hfound := mapError_eq_ok_iff.1 h
    split_ifs at hfound
    unfold placeIn at hfound
    split at hfound
    · cases hfound
    · cases hfound
    · rename_i folder node hstat
      split_ifs at hfound
      split at hfound
      · rename_i free hfree
        obtain rfl := Except.ok.inj hfound
        obtain ⟨k, hk, hplace, hnone, hname⟩ := exists_of_freePlace? hfree
        exact ⟨spelt, folder, node, k, hspelt, hstat, by omega, hplace, hnone, hname⟩
      · cases hfound

theorem find?_of_temporary (h : temporary fs target = .ok temp) : fs.find? temp = none := by
  obtain ⟨_, _, _, _, -, -, -, -, hnone, -⟩ := exists_of_temporary h
  exact hnone

theorem create_eq_ok_iff : create fs target faults = .ok temp ↔
    temporary fs target = .ok temp ∧ faults.create = none := by
  unfold create
  cases temporary fs target <;> cases faults.create <;> simp

theorem replace_eq_ok_iff : replace fs target faults = .ok place ↔
    targetPlace fs target = .ok place ∧ faults.replace = none := by
  unfold replace
  cases targetPlace fs target <;> cases faults.replace <;> simp

/-! ## The courses of a write -/

/-- The file systems of a write whose temporary file takes the given forms, one after the other. -/
def passing (fs : FileSystem) (temp : Place) (forms : List Node) (after : FileSystem) :
    List FileSystem :=
  fs :: forms.map (fs.put temp) ++ [after]

/-- The courses that a write can take, one for each step at which it can fail and one to its end,
with the file systems on the way and what it ends in. -/
inductive Course (fs : FileSystem) (target : Path) (contents : ByteArray) (faults : Faults) :
    List FileSystem × Except Failure Unit → Prop where
  | uncreated {e : IoFault} : create fs target faults = .error e →
      Course fs target contents faults ([fs], .error (.io target.folder e))
  | unpermitted {temp : Place} {e : OsError} : create fs target faults = .ok temp →
      permitFault? fs target faults = some e →
      Course fs target contents faults
        (passing fs temp [.file Mode.plainFile .empty] fs,
          .error (.io (temporaryPath fs target temp) (.os e)))
  | unfilled {temp : Place} {size : Nat} {e : IoFault} : create fs target faults = .ok temp →
      permitFault? fs target faults = none → faults.fill = some (size, e) →
      Course fs target contents faults
        (passing fs temp [.file Mode.plainFile .empty, .file (modeFor fs target) .empty,
            complete fs target (contents.extract 0 size)] fs,
          .error (.io (temporaryPath fs target temp)
            (.atPath e (temporaryPath fs target temp))))
  | unplaced {temp : Place} {e : OsError} : create fs target faults = .ok temp →
      permitFault? fs target faults = none → faults.fill = none →
      replace fs target faults = .error e →
      Course fs target contents faults
        (passing fs temp [.file Mode.plainFile .empty, .file (modeFor fs target) .empty,
            complete fs target contents] fs,
          .error (.replace target (.os e)))
  | done {temp place : Place} : create fs target faults = .ok temp →
      permitFault? fs target faults = none → faults.fill = none →
      replace fs target faults = .ok place →
      Course fs target contents faults
        (passing fs temp [.file Mode.plainFile .empty, .file (modeFor fs target) .empty,
            complete fs target contents] (fs.put place (complete fs target contents)),
          .ok ())

theorem course_stages (fs : FileSystem) (target : Path) (contents : ByteArray) (faults : Faults) :
    Course fs target contents faults (stages fs target contents faults) := by
  unfold stages
  cases hcreate : create fs target faults with
  | error e => exact .uncreated hcreate
  | ok temp =>
    have hgone := FileSystem.erase_put (find?_of_temporary (create_eq_ok_iff.1 hcreate).1)
    simp only [FileSystem.put_put, hgone]
    cases hpermit : permitFault? fs target faults with
    | some e => exact .unpermitted hcreate hpermit
    | none =>
      cases hfill : faults.fill with
      | some part => exact .unfilled hcreate hpermit hfill
      | none =>
        cases hreplace : replace fs target faults with
        | error e => exact .unplaced hcreate hpermit hfill hreplace
        | ok place => exact .done hcreate hpermit hfill hreplace

/-! ## The two endings -/

theorem result_write (fs : FileSystem) (target : Path) (contents : ByteArray) (faults : Faults) :
    (write fs target contents faults).2.result = (stages fs target contents faults).2 := by
  unfold write
  rw [Outcome.result_bind]
  cases hresult : (stages fs target contents faults).2 <;> simp [Outcome.ofExcept]

theorem write_of_error {f : Failure} (h : (write fs target contents faults).2.result = .error f) :
    (write fs target contents faults).1 = fs := by
  have hcourse := course_stages fs target contents faults
  rw [result_write] at h
  show (stages fs target contents faults).1.getLast?.getD fs = fs
  generalize stages fs target contents faults = course at h hcourse ⊢
  cases hcourse with
  | done => cases h
  | _ => rfl

theorem write_of_ok (h : (write fs target contents faults).2.result = .ok ()) :
    ∃ place, targetPlace fs target = .ok place ∧
      (write fs target contents faults).1 = fs.put place (complete fs target contents) := by
  have hcourse := course_stages fs target contents faults
  rw [result_write] at h
  show ∃ place, targetPlace fs target = .ok place ∧
    (stages fs target contents faults).1.getLast?.getD fs =
      fs.put place (complete fs target contents)
  generalize stages fs target contents faults = course at h hcourse ⊢
  cases hcourse with
  | done _ _ _ hreplace => exact ⟨_, (replace_eq_ok_iff.1 hreplace).1, rfl⟩
  | _ => cases h

/-- A write succeeds if a temporary file can be made, the target names a place, and no fault is
met. -/
theorem result_write_eq_ok_iff : (write fs target contents faults).2.result = .ok () ↔
    (∃ temp, create fs target faults = .ok temp) ∧ permitFault? fs target faults = none ∧
      faults.fill = none ∧ ∃ place, replace fs target faults = .ok place := by
  have hcourse := course_stages fs target contents faults
  rw [result_write]
  generalize stages fs target contents faults = course at hcourse ⊢
  cases hcourse with
  | uncreated hcreate => simp [hcreate]
  | unpermitted hcreate hpermit => simp [hcreate, hpermit]
  | unfilled hcreate hpermit hfill => simp [hcreate, hpermit, hfill]
  | unplaced hcreate hpermit hfill hreplace => simp [hcreate, hpermit, hfill, hreplace]
  | done hcreate hpermit hfill hreplace => simp [hcreate, hpermit, hfill, hreplace]

theorem result_write_noFaults_eq_ok_iff :
    (write fs target contents noFaults).2.result = .ok () ↔
      (∃ temp, temporary fs target = .ok temp) ∧ ∃ place, targetPlace fs target = .ok place := by
  have hpermit : permitFault? fs target noFaults = none := by
    unfold permitFault?
    cases fs.stat target <;> rfl
  rw [result_write_eq_ok_iff]
  simp only [create_eq_ok_iff, replace_eq_ok_iff, hpermit, true_and]
  simp [noFaults]

theorem exists_temporary_of_ok (h : (write fs target contents faults).2.result = .ok ()) :
    ∃ temp, temporary fs target = .ok temp := by
  obtain ⟨⟨temp, hcreate⟩, -⟩ := result_write_eq_ok_iff.1 h
  exact ⟨temp, (create_eq_ok_iff.1 hcreate).1⟩

/-- A write that succeeds has met no fault. -/
theorem write_noFaults_of_ok (h : (write fs target contents faults).2.result = .ok ()) :
    write fs target contents faults = write fs target contents noFaults := by
  obtain ⟨place, hplace, hleft⟩ := write_of_ok h
  have hok : (write fs target contents noFaults).2.result = .ok () :=
    result_write_noFaults_eq_ok_iff.2 ⟨exists_temporary_of_ok h, place, hplace⟩
  obtain ⟨_, hplace', hleft'⟩ := write_of_ok hok
  obtain rfl := Except.ok.inj (hplace.symm.trans hplace')
  refine Prod.ext (hleft.trans hleft'.symm) ?_
  rw [result_write] at h hok
  show (do Outcome.ofExcept (stages fs target contents faults).2; .note _) =
    (do Outcome.ofExcept (stages fs target contents noFaults).2; .note _)
  rw [h, hok]

/-! ## The place that a target names -/

/-- The segments of a path up to the last that is not empty are all of them if they are as many. -/
theorem significant_eq {p : Path} (h : ¬ (significant p).length < p.segments.length) :
    significant p = p.segments := by
  have hsuffix := List.dropWhile_suffix (l := p.segments.reverse) fun s => decide (s = [])
  unfold significant at h ⊢
  rw [List.length_reverse] at h
  rw [hsuffix.eq_of_length (by have := hsuffix.length_le; simp at this h ⊢; omega),
    List.reverse_reverse]

theorem steps_eq {p : Path} {n : EntryName} (h : ¬ (significant p).length < p.segments.length)
    (hlast : Step.ofSegment (lastSegment p) = .down n) :
    p.steps = (significant p).dropLast.map .ofSegment ++ [.down n] := by
  have hne : significant p ≠ [] := by
    intro hnil
    rw [lastSegment, hnil] at hlast
    cases hlast
  have hsegments : (significant p).dropLast ++ [lastSegment p] = p.segments := by
    rw [lastSegment, List.getLast?_eq_getLast_of_ne_nil hne, Option.getD_some,
      List.dropLast_append_getLast, significant_eq h]
  rw [Path.steps, ← hsegments, List.map_append, List.map_singleton, hlast]

/-- How a target is spelt whose place can be taken: a last name behind a path to a folder. -/
theorem exists_of_targetPlace (h : targetPlace fs target = .ok place) :
    ∃ (steps : List Step) (n : EntryName) (parent : Place) (mode : Mode),
      place = n :: parent ∧ target.steps = steps ++ [.down n] ∧
      0 ∉ target.bytes ∧ target.bytes ≠ [] ∧ target.bytes.length < pathLimit ∧
      fs.follow .target target.isAbsolute steps = .ok (some parent) ∧
      fs.find? parent = some (.folder mode) ∧ mode.grants .search = true ∧
      fs.isFolder place = false := by
  unfold targetPlace at h
  split_ifs at h with hzero hempty hlong
  simp only at h
  split at h
  · cases h
  · cases h
  · rename_i parent hfollow
    cases hlast : Step.ofSegment (lastSegment target) with
    | down n =>
      simp only [hlast] at h
      split_ifs at h with hfolder hsearch hslashed hwrite hisFolder
      obtain rfl := Except.ok.inj h
      obtain ⟨mode, hmode⟩ := FileSystem.exists_mode (by simpa using hfolder)
      have hgrants : mode.grants .search = true := by
        simpa [FileSystem.grants, hmode, Node.mode] using hsearch
      exact ⟨_, n, parent, mode, rfl, steps_eq hslashed hlast, hzero, hempty, by omega, hfollow,
        hmode, hgrants, by simpa using hisFolder⟩
    | _ =>
      simp only [hlast] at h
      split_ifs at h

/-! ## The route to a place -/

/-- How the path of a target leads to the place that it names: steps to a folder, and a name in
it. -/
structure Route (fs : FileSystem) (target : Path) where
  start : Place
  steps : List Step
  links : Nat
  folder : Place
  mode : Mode
  name : EntryName
  zero : 0 ∉ target.bytes
  nonempty : target.bytes ≠ []
  short : target.bytes.length < pathLimit
  last : name.bytes = lastSegment target
  begins_before : fs.start target.isAbsolute ((significant target).dropLast.map .ofSegment) =
    .ok (some (start, steps))
  begins : fs.start target.isAbsolute target.steps = .ok (some (start, steps ++ [.down name]))
  leads : FileSystem.Leads fs linkLimit start steps links folder
  isFolder : fs.find? folder = some (.folder mode)
  search : mode.grants .search = true
  free : fs.isFolder (name :: folder) = false
  follow_folder : fs.follow .target target.folder.isAbsolute target.folder.steps = .ok (some folder)
  mem_way : ∀ q, q ∈ fs.way target.folder ↔ q ∈ fs.places linkLimit start steps

theorem significant_of_segments {before : List (List UInt8)} {name : List UInt8}
    (hname : name ≠ []) (h : target.segments = before ++ [name]) :
    significant target = before ++ [name] := by
  unfold significant
  rw [h, List.reverse_append, List.reverse_singleton, List.singleton_append,
    List.dropWhile_cons_of_neg (by simpa using hname), List.reverse_cons, List.reverse_reverse]

theorem exists_route (h : targetPlace fs target = .ok place) :
    ∃ r : Route fs target, place = r.name :: r.folder := by
  obtain ⟨steps, n, parent, mode, rfl, hsteps, hzero, hempty, hshort, hfollow, hmode, hsearch,
    hfree⟩ := exists_of_targetPlace h
  obtain ⟨here, rest, hstart, hwalk⟩ := FileSystem.follow_eq_ok_iff.1 hfollow
  obtain ⟨links, hleads⟩ := FileSystem.walk_eq_ok_iff.1 hwalk
  -- the folder of the path has the segments before the name, but for idle ones at their end
  obtain ⟨before, segment, hsegments, rfl, hsegment⟩ : ∃ before segment,
      target.segments = before ++ [segment] ∧ before.map Step.ofSegment = steps ∧
        Step.ofSegment segment = .down n := by
    obtain ⟨before, last, hsegments, hbefore, hlast⟩ := List.map_eq_append_iff.1 hsteps
    obtain ⟨segment, rfl, hsegment⟩ := List.map_eq_singleton_iff.1 hlast
    exact ⟨before, segment, hsegments, hbefore, hsegment⟩
  have hbytes := Step.bytes_of_ofSegment hsegment
  have hsignificant := significant_of_segments (hbytes ▸ n.valid.1) hsegments
  obtain ⟨hidle, habsolute⟩ :=
    Path.folder_spec hsegments (Step.isIdle_of_ofSegment hsegment)
  obtain ⟨steps', hstart', hleads', hplaces⟩ :=
    FileSystem.exists_leads_of_dropIdle hidle hstart hleads hmode hsearch
  rw [← habsolute] at hstart'
  have hfolder : fs.start target.folder.isAbsolute target.folder.steps =
      .ok (some (here, steps')) := hstart'
  exact ⟨{
    start := here
    steps := rest
    links := links
    folder := parent
    mode := mode
    name := n
    zero := hzero
    nonempty := hempty
    short := hshort
    last := by rw [lastSegment, hsignificant, List.getLast?_concat, Option.getD_some, hbytes]
    begins_before := by rw [hsignificant, List.dropLast_concat, hstart]
    begins := by rw [hsteps, FileSystem.start_append hstart]
    leads := hleads
    isFolder := hmode
    search := hsearch
    free := hfree
    follow_folder := FileSystem.follow_eq_ok_iff.2 ⟨_, _, hfolder, hleads'.walk_eq⟩
    mem_way := by
      rw [FileSystem.way_eq hfolder]
      exact hplaces }, rfl⟩

/-- What the path of the target leads to, also after changes. -/
theorem Route.stat_eq (r : Route fs target) {fs' : FileSystem}
    (hwork : fs'.workFolder = fs.workFolder) (hremoved : fs'.workRemoved = fs.workRemoved) :
    fs'.stat target =
      match fs'.walk .target linkLimit r.start (r.steps ++ [.down r.name]) with
      | .error e => .error (.os e)
      | .ok q =>
        match fs'.find? q with
        | some node => .ok (some q, node)
        | none => .error (.os .notFound) := by
  have hagrees : fs.Agrees fs' fun _ => False := ⟨hwork, hremoved, fun _ h => h.elim⟩
  refine FileSystem.stat_eq_walk r.zero r.nonempty r.short ?_
  rw [FileSystem.start_congr hagrees, r.begins]

/-! ## What is read after a write -/

/-- Whether the way to a target's folder does not go through the place that the target names. -/
def IsDirect (fs : FileSystem) (target : Path) : Prop :=
  ∀ place, targetPlace fs target = .ok place → place ∉ fs.way target.folder

instance (fs : FileSystem) (target : Path) : Decidable (IsDirect fs target) :=
  decidable_of_iff ((targetPlace fs target).toOption.all fun place =>
      !(fs.way target.folder).contains place) <| by
    unfold IsDirect
    cases targetPlace fs target <;> simp [Except.toOption]

/-- What was written is what the path of a direct target leads to. -/
theorem stat_put_of_isDirect {node : Node} (hplace : targetPlace fs target = .ok place)
    (hnode : node.isLink = false) (h : IsDirect fs target) :
    (fs.put place node).stat target = .ok (some place, node) := by
  have hway := h place hplace
  obtain ⟨r, rfl⟩ := exists_route hplace
  rw [r.mem_way] at hway
  have hput : (fs.put (r.name :: r.folder) node).stat target = _ := r.stat_eq rfl rfl
  rw [hput, FileSystem.walk_put_last r.isFolder r.search hnode r.leads hway]
  simp only [FileSystem.find?_put_self (List.cons_ne_nil _ _)]

/-- What was written bars the way to a target that is not direct. -/
theorem stat_put_of_not_isDirect {node : Node} (hplace : targetPlace fs target = .ok place)
    (hlink : node.isLink = false) (hnode : node.isFolder = false) (h : ¬ IsDirect fs target) :
    (fs.put place node).stat target = .error (.os .notFolder) := by
  have hway : place ∈ fs.way target.folder := by
    by_contra hway
    refine h fun q hq => ?_
    obtain rfl := Except.ok.inj (hplace.symm.trans hq)
    exact hway
  obtain ⟨r, rfl⟩ := exists_route hplace
  rw [r.mem_way] at hway
  have hput : (fs.put (r.name :: r.folder) node).stat target = _ := r.stat_eq rfl rfl
  rw [hput, FileSystem.walk_put_through r.free hlink hnode r.leads
    (FileSystem.isFolder_of_find? r.isFolder) hway (List.cons_ne_nil _ _)]

/-- The place that a target names is a dead end if the target leads to no folder. -/
theorem isDeadEnd_of_stat (hplace : targetPlace fs target = .ok place)
    (hlinks : fs.stat target ≠ .error (.os .tooManyLinks))
    (hend : ∀ spot node, fs.stat target = .ok (spot, node) → node.isFolder = false) :
    fs.IsDeadEnd place := by
  obtain ⟨r, rfl⟩ := exists_route hplace
  rw [r.stat_eq rfl rfl] at hlinks hend
  refine FileSystem.isDeadEnd_of_walk r.isFolder r.search r.free r.leads ?_ fun q hq => ?_
  · intro hwalk
    rw [hwalk] at hlinks
    exact hlinks rfl
  · simp only [hq] at hend
    unfold FileSystem.isFolder
    cases hfind : fs.find? q with
    | none => rfl
    | some node =>
      simp only [hfind] at hend
      exact hend _ _ rfl

/-- A dead end is not on the way to a target's folder. -/
theorem not_mem_way_of_isDeadEnd {q : Place} (hplace : targetPlace fs target = .ok place)
    (h : fs.IsDeadEnd q) : q ∉ fs.way target.folder := by
  obtain ⟨r, -⟩ := exists_route hplace
  exact h.not_mem_way r.follow_folder (FileSystem.isFolder_of_find? r.isFolder)

/-- A target is direct if the place that it names is a dead end. -/
theorem isDirect_of_isDeadEnd
    (h : ∀ place, targetPlace fs target = .ok place → fs.IsDeadEnd place) :
    IsDirect fs target :=
  fun place hplace => not_mem_way_of_isDeadEnd hplace (h place hplace)

/-- Whether what a path leads to, if it leads anywhere, is no folder and can be read, and links do
not run out on the way. -/
structure IsLegible (fs : FileSystem) (target : Path) : Prop where
  links : fs.stat target ≠ .error (.os .tooManyLinks)
  file : ∀ spot node, fs.stat target = .ok (spot, node) →
    node.isFolder = false ∧ node.mode.grants .read = true

namespace IsLegible

theorem isDeadEnd (h : IsLegible fs target) (hplace : targetPlace fs target = .ok place) :
    fs.IsDeadEnd place :=
  isDeadEnd_of_stat hplace h.links fun spot node hstat => (h.file spot node hstat).1

theorem isDirect (h : IsLegible fs target) : IsDirect fs target :=
  isDirect_of_isDeadEnd fun _ => h.isDeadEnd

theorem grants_modeFor (h : IsLegible fs target) : (modeFor fs target).grants .read = true := by
  have hplain : Mode.plainFile.grants .read = true := by decide
  unfold modeFor
  cases hstat : fs.stat target with
  | error e => exact hplain
  | ok found => exact (h.file found.1 found.2 hstat).2

end IsLegible

/-- The new file can be read if the one before it could, or if there was none. -/
theorem grants_modeAfter (fs : FileSystem) (target : Path) (contents : ByteArray) :
    (modeAfter fs target contents).grants .read = (modeFor fs target).grants .read := by
  unfold modeAfter
  split_ifs
  · rfl
  · exact Mode.grants_afterWrite _ _

/-- A path that leads to a text, or to nothing, is legible. -/
theorem isLegible_of_readText (h : (∃ text, fs.readText target = .ok text) ∨
    fs.readText target = .error (.os .notFound)) : IsLegible fs target := by
  unfold FileSystem.readText FileSystem.readBytes at h
  constructor
  · intro hstat
    rw [hstat] at h
    simp at h
  · intro spot node hstat
    rw [hstat] at h
    cases hread : node.mode.grants .read <;> cases node <;> simp_all [Node.isFolder]

end PhotoTally.AtomicWrite
