import PhotoTally.Proofs.FileSystem.Spelling

/-!
# Canonical paths

The canonical path of a folder is the path of its place.  The walk that finds it has come to the
place through folders that can be searched, by a path that is not too long (`IsOpen`), so every
path leads there that spells the place out (`look_path`).  Hence a canonical path goes through no
link (`isCanonical_path`), and its own canonical path is itself (`canonical_path`).
-/

namespace PhotoTally

/-! ## The path of a place -/

theorem Place.path_cons {p : Place} (hp : p ≠ []) (n : EntryName) :
    (Place.path (n :: p)).bytes = p.path.bytes ++ Path.slash :: n.bytes := by
  have hne : p.reverse.map (·.bytes) ≠ [] := by simpa using hp
  rw [Place.path, List.reverse_cons, List.map_append, List.map_singleton, Text.joinAll_concat hne]
  rfl

/-- The path of a place is no longer than that of an entry there. -/
theorem Place.length_path_tail_le (p : Place) :
    (Place.path p.tail).bytes.length ≤ p.path.bytes.length := by
  cases p with
  | nil => exact Nat.le_refl _
  | cons n p =>
    by_cases hp : p = []
    · subst hp
      simp [Place.path, Text.joinAll]
    · rw [Place.path_cons hp, List.length_append]
      exact Nat.le_add_right _ _

theorem Place.zero_not_mem_path (p : Place) : 0 ∉ p.path.bytes := by
  intro h
  rcases List.mem_cons.1 h with h | h
  · exact absurd h (by decide)
  rcases Text.mem_joinAll h with h | ⟨s, hs, hzero⟩
  · exact absurd h (by decide)
  · obtain ⟨n, -, rfl⟩ := List.mem_map.1 hs
    exact n.valid.2.2.2.1 hzero

/-- The segments of a place's path are the names that lead there, behind an empty one. -/
theorem Place.segments_path {p : Place} (hp : p ≠ []) :
    p.path.segments = [] :: p.reverse.map (·.bytes) := by
  rw [FileSystem.path_eq_joinAll hp]
  exact Path.segments_joinAll (List.cons_ne_nil _ _) (FileSystem.slash_not_mem_names p)

/-- The path of a place has no segment that is a dot or two. -/
theorem Place.dotless_path (p : Place) :
    ∀ s ∈ p.path.segments, s ≠ [Path.dot] ∧ s ≠ [Path.dot, Path.dot] := by
  by_cases hp : p = []
  · subst hp
    decide
  rw [Place.segments_path hp]
  intro s hs
  rcases List.mem_cons.1 hs with rfl | hs
  · exact ⟨by simp, by simp⟩
  · obtain ⟨n, -, rfl⟩ := List.mem_map.1 hs
    exact n.valid.2.2.2.2

/-- Of a place's path each beginning that goes beyond the first slash is the path of a place that
leads there. -/
theorem Place.exists_beginning_path (p : Place) {k : Nat} (hk : 1 < k) :
    ∃ q : Place, q <:+ p ∧ ⟨Text.joinAll Path.slash (p.path.segments.take k)⟩ = q.path := by
  by_cases hp : p = []
  · subst hp
    have hall : (Place.path []).segments.take k = (Place.path []).segments :=
      List.take_of_length_le hk
    exact ⟨[], List.nil_suffix, by rw [hall]; decide⟩
  obtain ⟨j, rfl⟩ : ∃ j, k = j + 1 + 1 := ⟨k - 2, by omega⟩
  refine ⟨(p.reverse.take (j + 1)).reverse, ?_, ?_⟩
  · rw [← List.reverse_prefix, List.reverse_reverse]
    exact List.take_prefix _ _
  · rw [Place.segments_path hp, FileSystem.path_eq_joinAll (by simpa using hp), List.take_succ_cons,
      ← List.map_take, List.reverse_reverse]

theorem Place.steps_path {p : Place} (hp : p ≠ []) :
    p.path.steps = .gap :: p.reverse.map .down := by
  rw [Path.steps, Place.segments_path hp, List.map_cons, Step.map_ofSegment_names]
  rfl

namespace FileSystem

variable {fs : FileSystem} {k : Nat} {here p q : Place} {steps : List Step} {mode : Mode}

/-! ## Open places -/

/-- Whether all above a place are folders that can be searched, and its path is not too long. -/
structure IsOpen (fs : FileSystem) (p : Place) : Prop where
  above : ∀ q, q <:+ p → q ≠ p →
    ∃ mode, fs.find? q = some (.folder mode) ∧ mode.grants .search = true
  near : p.isFar 0 = false

theorem isOpen_nil (fs : FileSystem) : fs.IsOpen [] where
  above q hq hne := absurd (List.suffix_nil.1 hq) hne
  near := by decide

theorem IsOpen.down {n : EntryName} (h : fs.IsOpen here)
    (hf : fs.find? here = some (.folder mode)) (hs : mode.grants .search = true)
    (hnear : Place.isFar (n :: here) 0 = false) : fs.IsOpen (n :: here) where
  above q hq hne := by
    have hq := (List.suffix_cons_iff.1 hq).resolve_left hne
    by_cases heq : q = here
    · exact ⟨mode, heq ▸ hf, hs⟩
    · exact h.above q hq heq
  near := hnear

theorem isFar_tail (h : p.isFar 0 = false) : Place.isFar p.tail 0 = false := by
  have hlength := Place.length_path_tail_le p
  simp only [Place.isFar, decide_eq_false_iff_not, Nat.not_le] at h ⊢
  omega

theorem IsOpen.tail (h : fs.IsOpen p) : fs.IsOpen p.tail where
  above q hq hne := by
    refine h.above q (hq.trans (List.tail_suffix p)) ?_
    rintro rfl
    exact hne (hq.eq_of_length_le (by simp))
  near := isFar_tail h.near

theorem IsOpen.of_suffix (h : fs.IsOpen p) (hq : q <:+ p) : fs.IsOpen q := by
  induction p with
  | nil => rwa [List.suffix_nil.1 hq]
  | cons n p ih =>
    rcases List.suffix_cons_iff.1 hq with rfl | hq
    · exact h
    · exact ih h.tail hq

theorem IsOpen.exists_folder (h : fs.IsOpen p) (hend : fs.isFolder p = true) (hq : q <:+ p) :
    ∃ mode, fs.find? q = some (.folder mode) := by
  by_cases heq : q = p
  · exact exists_mode (heq ▸ hend)
  · obtain ⟨mode, hfind, -⟩ := h.above q hq heq
    exact ⟨mode, hfind⟩

/-! ## The walk to a canonical path -/

theorem leads_of_walkPlain {onLink : Place → Path → List Step → Except OsError Place}
    (hlink : ∀ here n target rest mode, fs.IsOpen here → fs.find? here = some (.folder mode) →
      mode.grants .search = true → fs.find? (n :: here) = some (.link target) →
      onLink here target rest = .ok p →
        (∃ k', Leads fs k here (.down n :: rest) k' p) ∧ fs.IsOpen p)
    (hhere : fs.IsOpen here) (h : fs.walkPlain .canonical onLink here steps = .ok p) :
    (∃ k', Leads fs k here steps k' p) ∧ fs.IsOpen p := by
  induction steps generalizing here with
  | nil =>
    obtain rfl := Except.ok.inj h
    exact ⟨⟨k, .done k here⟩, hhere⟩
  | cons step rest ih =>
    rw [walkPlain.eq_def] at h
    simp only [Manner.isSlashed, Manner.canonical, Bool.not_true, Bool.and_false,
      Bool.false_and, Bool.true_and, Bool.false_eq_true, if_false] at h
    split at h
    · rename_i mode hmode
      split_ifs at h with hdenied
      have hs : step ≠ .gap → mode.grants .search = true := by simpa using hdenied
      cases step with
      | gap =>
        obtain ⟨⟨k', hrest⟩, hp⟩ := ih hhere h
        exact ⟨⟨k', .gap hmode hrest⟩, hp⟩
      | stay =>
        obtain ⟨⟨k', hrest⟩, hp⟩ := ih hhere h
        exact ⟨⟨k', .stay hmode (hs (by simp)) hrest⟩, hp⟩
      | up =>
        obtain ⟨⟨k', hrest⟩, hp⟩ := ih hhere.tail h
        exact ⟨⟨k', .up hmode (hs (by simp)) hrest⟩, hp⟩
      | refused e => cases h
      | down n =>
        have hs := hs (by simp)
        by_cases hfar : Place.isFar (n :: here) 0 = true
        · simp [hfar] at h
        simp only [hfar, Bool.false_eq_true, if_false] at h
        rw [Bool.not_eq_true] at hfar
        cases hn : fs.find? (n :: here) with
        | none => simp [hn] at h
        | some node =>
          cases node with
          | link target =>
            simp only [hn] at h
            exact hlink here n target rest mode hhere hmode hs hn h
          | _ =>
            simp only [hn] at h
            split_ifs at h
            obtain ⟨⟨k', hrest⟩, hp⟩ := ih (hhere.down hmode hs hfar) h
            exact ⟨⟨k', .into hmode hs hn rfl hrest⟩, hp⟩
    · cases h

/-- What is found on the way to a canonical path is also found without looking at its length, and
is an open place. -/
theorem leads_of_canonical (hhere : fs.IsOpen here)
    (h : fs.walk .canonical k here steps = .ok p) :
    (∃ k', Leads fs k here steps k' p) ∧ fs.IsOpen p := by
  induction k generalizing here steps with
  | zero =>
    refine leads_of_walkPlain (fun _ _ _ _ _ _ _ _ _ hp => ?_) hhere h
    cases hp
  | succ k ih =>
    refine leads_of_walkPlain (fun here n target rest mode hhere hf hs hn hp => ?_) hhere h
    by_cases hempty : target.bytes = []
    · simp [hempty] at hp
    rw [if_neg hempty] at hp
    have hstart : fs.IsOpen (linkStart target here) := by
      unfold linkStart
      split_ifs
      · exact isOpen_nil fs
      · exact hhere
    obtain ⟨⟨k', hrest⟩, hopen⟩ := ih hstart hp
    exact ⟨⟨k', .link hf hs hn hempty hrest⟩, hopen⟩

/-! ## The walk along a canonical path -/

section Open

variable {manner : Manner} (hfree : manner.free = false)

theorem asksFolder_names (names : List EntryName) : asksFolder (names.map .down) = false := by
  cases names <;> simp [asksFolder, Step.isIdle]

include hfree

/-- Names lead through open folders to the place that they name, however they are followed. -/
theorem walkPlain_names {onLink : Place → Path → List Step → Except OsError Place}
    {names : List EntryName} (hopen : fs.IsOpen (names.reverse ++ here))
    (hend : fs.isFolder (names.reverse ++ here) = true) :
    fs.walkPlain manner onLink here (names.map .down) = .ok (names.reverse ++ here) := by
  induction names generalizing here with
  | nil => rfl
  | cons n names ih =>
    have hbelow : (n :: names).reverse ++ here = names.reverse ++ n :: here := by
      rw [List.reverse_cons, List.append_assoc, List.singleton_append]
    rw [hbelow] at hopen hend ⊢
    have hinto := hopen.of_suffix (List.suffix_append names.reverse (n :: here))
    obtain ⟨mode, hmode, hs⟩ :=
      hinto.above here (List.suffix_cons n here) (List.cons_ne_self n here).symm
    obtain ⟨modeInto, hmodeInto⟩ := hopen.exists_folder hend (List.suffix_append names.reverse _)
    rw [List.map_cons, walkPlain.eq_def]
    simp [hmode, hs, hmodeInto, hinto.near, Manner.isSlashed, hfree, asksFolder_names,
      ih hopen hend]

theorem walk_path (hopen : fs.IsOpen p) (hend : fs.isFolder p = true) (k : Nat) :
    fs.walk manner k [] p.path.steps = .ok p := by
  have hroot : fs.find? [] = some (.folder Mode.plainFolder) := rfl
  have hplain (onLink : Place → Path → List Step → Except OsError Place) :
      fs.walkPlain manner onLink [] p.path.steps = .ok p := by
    by_cases hp : p = []
    · subst hp
      have hsteps : (Place.path []).steps = [.gap, .gap] := by decide
      simp [hsteps, walkPlain, hroot, Manner.isSlashed, hfree]
    · have hwalk : fs.walkPlain manner onLink [] (p.reverse.map .down) =
          .ok (p.reverse.reverse ++ []) :=
        walkPlain_names hfree (by simpa using hopen) (by simpa using hend)
      rw [Place.steps_path hp, walkPlain.eq_def]
      simp [hroot, Manner.isSlashed, hfree, -List.map_reverse, hwalk]
  cases k <;> exact hplain _

/-- The path of an open folder leads to the folder. -/
theorem look_path (hopen : fs.IsOpen p) (hf : fs.find? p = some (.folder mode)) :
    fs.look manner p.path = .ok (some p, .folder mode) := by
  have hshort : ¬ pathLimit ≤ p.path.bytes.length := by
    simpa [Place.isFar] using hopen.near
  have hfollow : fs.follow manner p.path.isAbsolute p.path.steps = .ok (some p) := by
    refine follow_eq_ok_iff.2 ⟨[], p.path.steps, rfl, ?_⟩
    exact walk_path hfree hopen (isFolder_of_find? hf) linkLimit
  have hbytes : p.path.bytes ≠ [] := List.cons_ne_nil _ _
  unfold look resolve
  rw [if_neg p.zero_not_mem_path, if_neg hbytes, if_neg hshort, hfollow]
  simp [Except.mapError, nodeAt?, hf]

end Open

/-! ## Canonical paths -/

theorem isAbsolute_of_absolute {path spelt : Path} (h : fs.absolute path = .ok spelt) :
    spelt.isAbsolute = true := by
  unfold absolute at h
  split_ifs at h with habsolute
  · obtain rfl := Except.ok.inj h
    exact habsolute
  · obtain rfl := Except.ok.inj h
    rw [Bool.not_eq_true] at habsolute
    unfold Path.join
    rw [habsolute, if_neg Bool.false_ne_true]
    split_ifs <;> rfl

/-- A canonical path is the path of the place that is meant, which can be reached from the root. -/
theorem exists_of_canonical {path spelt : Path} (htree : fs.IsTree)
    (h : fs.canonical path = .ok spelt) : ∃ p, spelt = p.path ∧ fs.IsOpen p ∧
      fs.follow .target path.isAbsolute path.steps = .ok (some p) := by
  unfold canonical at h
  split at h
  · cases h
  · rename_i absolute habsolute
    obtain ⟨p, hwalk, rfl⟩ := map_eq_ok_iff.1 h
    obtain ⟨⟨k', hleads⟩, hopen⟩ := leads_of_canonical (isOpen_nil fs) hwalk
    refine ⟨p, rfl, hopen, ?_⟩
    refine (follow_of_absolute htree habsolute ?_).1
    refine follow_eq_ok_iff.2 ⟨[], absolute.steps, ?_, hleads.walk_eq⟩
    rw [isAbsolute_of_absolute habsolute]
    rfl

/-- Whether a path is spelt from the root, without dots, and goes through no link: each beginning
of it is the path of a folder, even if a link at its end is not followed. -/
structure IsCanonical (fs : FileSystem) (path : Path) : Prop where
  absolute : path.isAbsolute = true
  dotless : ∀ s ∈ path.segments, s ≠ [Path.dot] ∧ s ≠ [Path.dot, Path.dot]
  folders : ∀ k, 1 < k → ∃ spot mode,
    fs.lstat ⟨Text.joinAll Path.slash (path.segments.take k)⟩ = .ok (spot, .folder mode)

theorem isCanonical_path (hopen : fs.IsOpen p) (hf : fs.find? p = some (.folder mode)) :
    fs.IsCanonical p.path where
  absolute := rfl
  dotless := p.dotless_path
  folders k hk := by
    obtain ⟨q, hq, hbeginning⟩ := p.exists_beginning_path hk
    obtain ⟨modeThere, hthere⟩ := hopen.exists_folder (isFolder_of_find? hf) hq
    rw [hbeginning]
    exact ⟨some q, modeThere, look_path rfl (hopen.of_suffix hq) hthere⟩

/-- The canonical path of an open folder is its path. -/
theorem canonical_path (hopen : fs.IsOpen p) (hend : fs.isFolder p = true) :
    fs.canonical p.path = .ok p.path := by
  have habsolute : fs.absolute p.path = .ok p.path := rfl
  have hwalk : fs.walk .canonical linkLimit [] p.path.steps = .ok p :=
    walk_path rfl hopen hend linkLimit
  unfold canonical
  simp only [habsolute, hwalk, Except.map]

end FileSystem

end PhotoTally
