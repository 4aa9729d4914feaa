import PhotoTally.Proofs.AtomicWrite

/-!
# A write step by step

At every moment of a write each place stands as before, or is the target's place with the complete
new file, or holds the temporary file, where nothing was (`of_moment`).  A write that succeeds has
changed the target's place only, and one that fails nothing, whatever fault it has met at whatever
step (`write_all_or_nothing`).

The new file is given its permission bits before it is filled, so it keeps the nine rights of the
file that it replaces, but may lose its special bits (`special_bits_lost`).
-/

namespace PhotoTally

/-! ## Permission bits -/

namespace Mode

/-- Whether a write takes no bit away: a file that runs neither with its owner's rights nor, if the
group may run it, with its group's. -/
def IsPlain (m : Mode) : Prop :=
  Nat.testBit m asOwner = false ∧ (Nat.testBit m asGroup && Nat.testBit m groupRuns) = false

/-- A write takes no right away, nor the bit behind the two special ones. -/
theorem testBit_afterWrite_of_lt (m : Mode) {k : Nat} (h : k < asGroup) :
    Nat.testBit m.afterWrite k = Nat.testBit m k := by
  have hgroup : k ≠ asGroup := Nat.ne_of_lt h
  have howner : k ≠ asOwner := by
    unfold asGroup asOwner at *
    omega
  rw [testBit_afterWrite]
  simp [hgroup, howner]

theorem afterWrite_eq_self_iff (m : Mode) : m.afterWrite = m ↔ m.IsPlain := by
  constructor
  · intro h
    have howner := testBit_afterWrite m asOwner
    have hgroup := testBit_afterWrite m asGroup
    rw [h] at howner hgroup
    refine ⟨by simpa using howner, ?_⟩
    cases hm : Nat.testBit m asGroup <;> simp_all [asOwner, asGroup]
  · rintro ⟨howner, hgroup⟩
    refine Nat.eq_of_testBit_eq fun k => ?_
    rw [testBit_afterWrite]
    by_cases hk : k = asOwner
    · rw [hk, howner, Bool.false_and]
    · by_cases hk' : k = asGroup
      · subst hk'
        cases hm : Nat.testBit m asGroup <;> simp_all
      · simp [hk, hk']

end Mode

/-! ## Paths to new entries -/

namespace FileSystem

variable {fs : FileSystem} {k k' : Nat} {here p : Place} {steps : List Step} {mode : Mode}

/-- Before its last name a path to a new entry is followed as any other. -/
theorem Leads.walk_fresh (h : Leads fs k here steps k' p) {more : List Step} (hmore : more ≠ []) :
    fs.walk .fresh k here (steps ++ more) = fs.walk .fresh k' p more := by
  induction h with
  | done => rfl
  | @gap k _ _ _ _ _ hf _ ih =>
    rw [List.cons_append, ← ih]
    cases k <;> simp [walk, walkPlain, hf, Manner.isSlashed, Manner.fresh]
  | @stay k _ _ _ _ _ hf hs _ ih =>
    rw [List.cons_append, ← ih]
    cases k <;> simp [walk, walkPlain, hf, hs, Manner.isSlashed, Manner.fresh]
  | @up k _ _ _ _ _ hf hs _ ih =>
    rw [List.cons_append, ← ih]
    cases k <;> simp [walk, walkPlain, hf, hs, Manner.isSlashed, Manner.fresh]
  | @into k _ _ _ _ _ _ node hf hs hn hlink _ ih =>
    rw [List.cons_append, ← ih]
    cases k <;> cases node <;>
      simp_all [walk, walkPlain, Manner.isSlashed, Manner.fresh, Node.isLink]
  | link hf hs hn htarget _ ih =>
    rw [List.cons_append, ← ih, List.append_assoc]
    simp [walk, walkPlain, hf, hs, hn, Manner.isSlashed, Manner.fresh, htarget, hmore, linkStart]

/-- A path to a new entry names its last name in the folder before it. -/
theorem Leads.walk_fresh_last (h : Leads fs k here steps k' p)
    (hf : fs.find? p = some (.folder mode)) (hs : mode.grants .search = true) (n : EntryName) :
    fs.walk .fresh k here (steps ++ [.down n]) = .ok (n :: p) := by
  rw [h.walk_fresh (List.cons_ne_nil _ _)]
  cases k' <;> cases hn : fs.find? (n :: p) with
  | none => simp [walk, walkPlain, hf, hs, hn, Manner.isSlashed, Manner.fresh]
  | some node =>
    cases node <;> simp [walk, walkPlain, hf, hs, hn, Manner.isSlashed, Manner.fresh]

end FileSystem

namespace AtomicWrite

variable {fs s : FileSystem} {target : Path} {contents : ByteArray} {place temp : Place}
  {faults : Faults}

/-- The entry whose place a target takes is the one that its path names. -/
theorem resolve_of_targetPlace (h : targetPlace fs target = .ok place) :
    fs.resolve .fresh target = .ok (some place) := by
  obtain ⟨r, rfl⟩ := exists_route h
  have hshort := r.short
  have hfollow : fs.follow .fresh target.isAbsolute target.steps =
      .ok (some (r.name :: r.folder)) :=
    FileSystem.follow_eq_ok_iff.2 ⟨_, _, r.begins, r.leads.walk_fresh_last r.isFolder r.search _⟩
  unfold FileSystem.resolve
  rw [if_neg r.zero, if_neg r.nonempty, if_neg (by omega), hfollow]
  rfl

/-! ## The moments of a write -/

/-- The file systems that there are while a write goes on: those between its steps, and those where
a part of the contents is in the temporary file. -/
inductive Moment (fs : FileSystem) (target : Path) (contents : ByteArray) (faults : Faults) :
    FileSystem → Prop where
  | stage {s : FileSystem} : s ∈ (stages fs target contents faults).1 →
      Moment fs target contents faults s
  | filling {temp : Place} (size : Nat) : create fs target faults = .ok temp →
      permitFault? fs target faults = none →
      Moment fs target contents faults
        (fs.put temp (complete fs target (contents.extract 0 size)))

/-- Whether a place can be that of the temporary file: nothing is there, and it has another name
than the target. -/
def IsSpare (fs : FileSystem) (target : Path) (p : Place) : Prop :=
  fs.find? p = none ∧ ∃ n folder, p = n :: folder ∧ n.bytes ≠ lastSegment target

theorem isSpare_of_temporary (h : temporary fs target = .ok temp) : IsSpare fs target temp := by
  obtain ⟨_, folder, _, k, -, -, -, rfl, hnone, hname⟩ := exists_of_temporary h
  exact ⟨hnone, _, folder, rfl, hname⟩

/-- The place of the target is not that of the temporary file. -/
theorem IsSpare.targetPlace_ne (h : IsSpare fs target temp) : targetPlace fs target ≠ .ok temp := by
  intro hplace
  obtain ⟨-, n, folder, rfl, hname⟩ := h
  obtain ⟨r, hr⟩ := exists_route hplace
  obtain ⟨rfl, rfl⟩ := List.cons.inj hr
  exact hname r.last

/-- While a temporary file is there, nothing else has changed. -/
theorem find?_put_temporary (h : temporary fs target = .ok temp) (node : Node) (p : Place) :
    (fs.put temp node).find? p = fs.find? p ∨ IsSpare fs target p := by
  have hspare := isSpare_of_temporary h
  obtain ⟨-, n, folder, rfl, -⟩ := id hspare
  by_cases hp : p = n :: folder
  · exact .inr (hp ▸ hspare)
  · exact .inl (FileSystem.find?_put_of_ne (List.cons_ne_nil n folder) hp node)

/-- A file system between the steps is the one before, or has the temporary file or the complete new
file besides. -/
theorem of_mem_stages (h : s ∈ (stages fs target contents faults).1) :
    s = fs ∨ (∃ temp node, temporary fs target = .ok temp ∧ s = fs.put temp node) ∨
      ∃ place, targetPlace fs target = .ok place ∧
        s = fs.put place (complete fs target contents) := by
  have hcourse := course_stages fs target contents faults
  generalize stages fs target contents faults = course at h hcourse
  have hpassing {temp : Place} {forms : List Node} {after : FileSystem}
      (hcreate : create fs target faults = .ok temp) (hs : s ∈ passing fs temp forms after) :
      s = fs ∨ (∃ temp node, temporary fs target = .ok temp ∧ s = fs.put temp node) ∨
        s = after := by
    rcases List.mem_append.1 hs with hs | hs
    · rcases List.mem_cons.1 hs with hs | hs
      · exact .inl hs
      · obtain ⟨node, -, rfl⟩ := List.mem_map.1 hs
        exact .inr (.inl ⟨temp, node, (create_eq_ok_iff.1 hcreate).1, rfl⟩)
    · exact .inr (.inr (List.mem_singleton.1 hs))
  cases hcourse with
  | uncreated _ => exact .inl (List.mem_singleton.1 h)
  | done hcreate _ _ hreplace =>
    exact (hpassing hcreate h).imp_right (.imp_right fun hs =>
      ⟨_, (replace_eq_ok_iff.1 hreplace).1, hs⟩)
  | unpermitted hcreate | unfilled hcreate | unplaced hcreate =>
    rcases hpassing hcreate h with hs | hs | hs
    · exact .inl hs
    · exact .inr (.inl hs)
    · exact .inl hs

/-- At every moment each place is as before, or has the complete new file, or is where the temporary
file is. -/
theorem of_moment (h : Moment fs target contents faults s) (p : Place) :
    s.find? p = fs.find? p ∨
      (targetPlace fs target = .ok p ∧ s.find? p = some (complete fs target contents)) ∨
      IsSpare fs target p := by
  have hput {temp : Place} (htemp : temporary fs target = .ok temp) (node : Node) :
      (fs.put temp node).find? p = fs.find? p ∨
        (targetPlace fs target = .ok p ∧
          (fs.put temp node).find? p = some (complete fs target contents)) ∨
        IsSpare fs target p :=
    (find?_put_temporary htemp node p).imp_right .inr
  cases h with
  | filling size hcreate _ => exact hput (create_eq_ok_iff.1 hcreate).1 _
  | stage hs =>
    rcases of_mem_stages hs with rfl | ⟨temp, node, htemp, rfl⟩ | ⟨place, hplace, rfl⟩
    · exact .inl rfl
    · exact hput htemp node
    · obtain ⟨r, rfl⟩ := exists_route hplace
      by_cases hp : p = r.name :: r.folder
      · rw [hp]
        exact .inr (.inl ⟨hplace, FileSystem.find?_put_self (List.cons_ne_nil _ _) _⟩)
      · exact .inl (FileSystem.find?_put_of_ne (List.cons_ne_nil _ _) hp _)

/-- A write begins with the file system as it is. -/
theorem moment_before (fs : FileSystem) (target : Path) (contents : ByteArray) (faults : Faults) :
    Moment fs target contents faults fs := by
  refine .stage ?_
  have hcourse := course_stages fs target contents faults
  generalize stages fs target contents faults = course at hcourse ⊢
  cases hcourse <;> exact List.mem_cons_self

/-- A write ends with what it leaves behind. -/
theorem moment_after (fs : FileSystem) (target : Path) (contents : ByteArray) (faults : Faults) :
    Moment fs target contents faults (write fs target contents faults).1 := by
  refine .stage ?_
  show (stages fs target contents faults).1.getLast?.getD fs ∈ (stages fs target contents faults).1
  have hcourse := course_stages fs target contents faults
  generalize stages fs target contents faults = course at hcourse ⊢
  cases hcourse <;> simp [passing]

/-! ## The whole write -/

/-- Whether `after` is `fs` with a new file in the place of the entry that a target names. -/
structure Replaced (fs after : FileSystem) (target : Path) (contents : ByteArray) (place : Place) :
    Prop where
  named : fs.resolve .fresh target = .ok (some place)
  file : after.find? place = some (.file (modeAfter fs target contents) contents)
  others : ∀ p ≠ place, after.find? p = fs.find? p
  new : ∀ e, fs.stat target = .error e → modeAfter fs target contents = 0o644
  rights : ∀ spot node, fs.stat target = .ok (spot, node) → ∀ k < 10,
    Nat.testBit (modeAfter fs target contents) k = Nat.testBit node.mode k
  bits : ∀ spot node, fs.stat target = .ok (spot, node) →
    (modeAfter fs target contents = node.mode ↔ contents.isEmpty ∨ node.mode.IsPlain)
  linked : ∀ link q mode bytes, fs.find? place = some (.link link) →
    fs.stat target = .ok (some q, .file mode bytes) → after.find? q = some (.file mode bytes)

theorem modeAfter_eq_of_stat {spot : Spot} {node : Node} (h : fs.stat target = .ok (spot, node)) :
    modeAfter fs target contents =
      if contents.isEmpty then node.mode else node.mode.afterWrite := by
  unfold modeAfter modeFor
  rw [h]

/-- A write that succeeds has replaced the entry that its target names. -/
theorem replaced_of_write (h : (write fs target contents faults).2.result = .ok ()) :
    ∃ place, targetPlace fs target = .ok place ∧
      Replaced fs (write fs target contents faults).1 target contents place := by
  obtain ⟨place, hplace, hwrite⟩ := write_of_ok h
  have hnamed := resolve_of_targetPlace hplace
  obtain ⟨r, rfl⟩ := exists_route hplace
  have hne : r.name :: r.folder ≠ [] := List.cons_ne_nil _ _
  rw [hwrite]
  refine ⟨r.name :: r.folder, hplace, hnamed, FileSystem.find?_put_self hne _,
    fun p hp => FileSystem.find?_put_of_ne hne hp _, ?_, ?_, ?_, ?_⟩
  · intro e he
    have hplain : Mode.plainFile.afterWrite = 0o644 := by decide
    unfold modeAfter modeFor
    rw [he]
    split_ifs
    · rfl
    · exact hplain
  · intro spot node hstat k hk
    rw [modeAfter_eq_of_stat hstat]
    split_ifs
    · rfl
    · exact Mode.testBit_afterWrite_of_lt _ hk
  · intro spot node hstat
    rw [modeAfter_eq_of_stat hstat]
    split_ifs with hempty
    · simp [hempty]
    · rw [Mode.afterWrite_eq_self_iff]
      simp [hempty]
  · intro link q mode bytes hlink hstat
    have hq := FileSystem.find?_of_stat hstat
    rw [FileSystem.find?_put_of_ne hne _ _, hq]
    rintro rfl
    rw [hlink] at hq
    cases hq

/-- At every moment of a write each place is as before, or is the target's and has the complete new
file, or was free, has another name than the target, and holds the temporary file.  A write that
succeeds has replaced the entry that the target names, and changed nothing else; one that fails, at
whatever step and whatever was written by then, has changed nothing. -/
theorem write_all_or_nothing (fs : FileSystem) (target : Path) (contents : ByteArray)
    (faults : Faults) :
    (∀ s, Moment fs target contents faults s → ∀ p, s.find? p = fs.find? p ∨
      (targetPlace fs target = .ok p ∧ s.find? p = some (complete fs target contents)) ∨
      IsSpare fs target p) ∧
    Moment fs target contents faults fs ∧
    Moment fs target contents faults (write fs target contents faults).1 ∧
    ((write fs target contents faults).2.result = .ok () →
      ∃ place, targetPlace fs target = .ok place ∧
        Replaced fs (write fs target contents faults).1 target contents place) ∧
    ∀ f, (write fs target contents faults).2.result = .error f →
      (write fs target contents faults).1 = fs :=
  ⟨fun _ hs => of_moment hs, moment_before _ _ _ _, moment_after _ _ _ _, replaced_of_write,
    fun _ => write_of_error⟩

/-- A file that runs with its owner's rights, and a link to another file. -/
def privileged : FileSystem :=
  let program := (FileSystem.ofPaths [] ["/notes"]).put (Path.ofString "/run").place
    (.file 0o4755 "old".toUTF8)
  program.put (Path.ofString "/link").place (.link (.ofString "notes"))

/-- A file that is replaced can lose the bit by which it runs with its owner's rights. -/
theorem special_bits_lost :
    privileged.stat (.ofString "/run") =
        .ok (some (Path.ofString "/run").place, .file 0o4755 "old".toUTF8) ∧
      (write privileged (.ofString "/run") "new".toUTF8 noFaults).2.result = .ok () ∧
      (write privileged (.ofString "/run") "new".toUTF8 noFaults).1.stat (.ofString "/run") =
        .ok (some (Path.ofString "/run").place, .file 0o755 "new".toUTF8) := by
  decide +kernel

/-- A full disk, after one byte. -/
def diskFull : Faults := { noFaults with fill := some (1, .os (.other 28 "No space left on device")) }

theorem write_all_or_nothing_link :
    privileged.find? (Path.ofString "/link").place = some (.link (.ofString "notes")) ∧
      (write privileged (.ofString "/link") "new".toUTF8 noFaults).2.result = .ok () ∧
      (∃ place, targetPlace privileged (.ofString "/link") = .ok place ∧
        Replaced privileged (write privileged (.ofString "/link") "new".toUTF8 noFaults).1
          (.ofString "/link") "new".toUTF8 place) ∧
      (write privileged (.ofString "/link") "new".toUTF8 diskFull).2.result =
        .error (.io (.ofString "/.tmp000000")
          (.atPath (.os (.other 28 "No space left on device")) (.ofString "/.tmp000000"))) ∧
      (write privileged (.ofString "/link") "new".toUTF8 diskFull).1 = privileged := by
  have hwrites : (write privileged (.ofString "/link") "new".toUTF8 noFaults).2.result = .ok () ∧
      (write privileged (.ofString "/link") "new".toUTF8 diskFull).2.result =
        .error (.io (.ofString "/.tmp000000")
          (.atPath (.os (.other 28 "No space left on device")) (.ofString "/.tmp000000"))) := by
    decide +kernel
  obtain ⟨hok, hfull⟩ := hwrites
  refine ⟨by decide +kernel, hok, ?_, hfull, ?_⟩
  · exact (write_all_or_nothing privileged (.ofString "/link") "new".toUTF8 noFaults).2.2.2.1 hok
  · exact (write_all_or_nothing privileged (.ofString "/link") "new".toUTF8 diskFull).2.2.2.2 _ hfull

end AtomicWrite

end PhotoTally
