import PhotoTally.Photo
import PhotoTally.Proofs.FileSystem.Additions
import PhotoTally.Proofs.FileSystem.Spelling

/-!
# Paths below a folder

`root.below names` is the path `root` with names joined behind it.  It is followed as `root` is, and
from there on name by name (`exists_begin_below`), so where it leads is a matter of the place that
`root` leads to (`leads_below`).
-/

namespace PhotoTally

/-- A path with names joined behind it. -/
def Path.below (root : Path) (names : List EntryName) : Path :=
  names.foldl (fun path n => path.join ⟨n.bytes⟩) root

namespace Path

variable {root : Path}

theorem below_concat (root : Path) (names : List EntryName) (n : EntryName) :
    root.below (names ++ [n]) = (root.below names).join ⟨n.bytes⟩ := by
  simp [below]

theorem isAbsolute_name (n : EntryName) : isAbsolute ⟨n.bytes⟩ = false := by
  unfold isAbsolute
  rw [beq_eq_false_iff_ne]
  intro h
  exact FileSystem.slash_not_mem_bytes n (List.mem_of_head? h)

theorem join_bytes_ne_nil (path : Path) (n : EntryName) : (path.join ⟨n.bytes⟩).bytes ≠ [] := by
  have hn := n.valid.1
  unfold join
  rw [isAbsolute_name, if_neg Bool.false_ne_true]
  split_ifs
  · simp [hn]
  · simp

theorem isAbsolute_join {path : Path} (h : path.bytes ≠ []) (n : EntryName) :
    (path.join ⟨n.bytes⟩).isAbsolute = path.isAbsolute := by
  obtain ⟨first, rest, hbytes⟩ := List.exists_cons_of_ne_nil h
  unfold join
  rw [isAbsolute_name, if_neg Bool.false_ne_true]
  unfold isAbsolute
  split_ifs <;> simp [hbytes]

theorem splitAll_append_slash (a b : List UInt8) :
    Text.splitAll slash (a ++ slash :: b) = Text.splitAll slash a ++ Text.splitAll slash b := by
  have := Text.splitAll_joinAll_append (Text.splitAll_ne_nil slash a)
    (fun _ => Text.not_mem_of_mem_splitAll) b
  rwa [Text.joinAll_splitAll] at this

/-- The segments of a path with a name joined behind it: those of the path but for an empty one at
its end, and the name. -/
theorem exists_segments_join (path : Path) :
    ∃ front gaps, path.segments = front ++ gaps ∧ (gaps = [] ∨ gaps = [[]]) ∧
      ∀ n : EntryName, (path.join ⟨n.bytes⟩).segments = front ++ [n.bytes] := by
  have hname (n : EntryName) : Text.splitAll slash n.bytes = [n.bytes] :=
    Text.splitAll_of_not_mem (FileSystem.slash_not_mem_bytes n)
  unfold join segments
  by_cases hnil : path.bytes = []
  · refine ⟨[], [[]], by rw [hnil]; rfl, .inr rfl, fun n => ?_⟩
    rw [isAbsolute_name, if_neg Bool.false_ne_true, if_pos (by simp [hnil]), hnil]
    exact hname n
  by_cases hlast : path.bytes.getLast? = some slash
  · obtain ⟨before, hbefore⟩ := List.getLast?_eq_some_iff.1 hlast
    refine ⟨Text.splitAll slash before, [[]], ?_, .inr rfl, fun n => ?_⟩
    · rw [hbefore, splitAll_append_slash]
      rfl
    · rw [isAbsolute_name, if_neg Bool.false_ne_true, if_pos (by simp [hlast]), hbefore,
        List.append_assoc, List.singleton_append, splitAll_append_slash, hname]
  · refine ⟨Text.splitAll slash path.bytes, [], (List.append_nil _).symm, .inl rfl, fun n => ?_⟩
    rw [isAbsolute_name, if_neg Bool.false_ne_true, if_neg (by simp [hnil, hlast]),
      splitAll_append_slash, hname]

/-- The steps of a path with a name joined behind it: those of the path but for a gap at its end,
and one down. -/
theorem exists_steps_join (path : Path) :
    ∃ front gaps, path.steps = front ++ gaps ∧ (gaps = [] ∨ gaps = [.gap]) ∧
      ∀ n : EntryName, (path.join ⟨n.bytes⟩).steps = front ++ [.down n] := by
  obtain ⟨front, gaps, hsegments, hgaps, hjoin⟩ := exists_segments_join path
  refine ⟨front.map .ofSegment, gaps.map .ofSegment, ?_, ?_, fun n => ?_⟩
  · rw [steps, hsegments, List.map_append]
  · rcases hgaps with rfl | rfl
    · exact .inl rfl
    · exact .inr rfl
  · rw [steps, hjoin, List.map_append, List.map_singleton, Step.ofSegment_bytes]

/-- A file in a folder has the base name that its own name has. -/
theorem baseName?_join (path : Path) (n : EntryName) :
    Photo.baseName? (path.join ⟨n.bytes⟩) = Photo.baseName? ⟨n.bytes⟩ := by
  have hidle : isIdle n.bytes = false := Step.isIdle_of_ofSegment (Step.ofSegment_bytes n)
  have hown : (Path.mk n.bytes).segments = [] ++ [n.bytes] :=
    Text.splitAll_of_not_mem (FileSystem.slash_not_mem_bytes n)
  obtain ⟨front, gaps, -, -, hjoin⟩ := exists_segments_join path
  unfold Photo.baseName? stem? fileName?
  rw [hjoin, hown, dropIdle_concat hidle, dropIdle_concat hidle, List.getLast?_concat,
    List.getLast?_concat]

theorem below_bytes_ne_nil (h : root.bytes ≠ []) (names : List EntryName) :
    (root.below names).bytes ≠ [] := by
  induction names using List.reverseRecOn with
  | nil => exact h
  | append_singleton names n _ =>
    rw [below_concat]
    exact join_bytes_ne_nil _ n

theorem isAbsolute_below (h : root.bytes ≠ []) (names : List EntryName) :
    (root.below names).isAbsolute = root.isAbsolute := by
  induction names using List.reverseRecOn with
  | nil => rfl
  | append_singleton names n ih =>
    rw [below_concat, isAbsolute_join (below_bytes_ne_nil h names), ih]

/-- The steps of a path below another: those of the other but for a gap at its end, and one down
for each name. -/
theorem exists_steps_below (root : Path) :
    ∃ front gaps, root.steps = front ++ gaps ∧ (gaps = [] ∨ gaps = [.gap]) ∧
      ∀ names, names ≠ [] → (root.below names).steps = front ++ names.map .down := by
  obtain ⟨front, gaps, hsteps, hgaps, hjoin⟩ := exists_steps_join root
  refine ⟨front, gaps, hsteps, hgaps, fun names hnames => ?_⟩
  induction names using List.reverseRecOn with
  | nil => exact absurd rfl hnames
  | append_singleton names n ih =>
    rw [below_concat]
    by_cases hnil : names = []
    · subst hnil
      exact hjoin n
    · -- the path before the last name ends in a name, so no gap is left out
      obtain ⟨front', gaps', hsteps', hgaps', hjoin'⟩ := exists_steps_join (root.below names)
      rw [ih hnil] at hsteps'
      obtain rfl : gaps' = [] := by
        refine hgaps'.resolve_right ?_
        rintro rfl
        have hlast := congrArg List.getLast? hsteps'
        rw [List.getLast?_append_of_ne_nil _ (by simpa using hnil), List.getLast?_concat,
          List.getLast?_map] at hlast
        cases hend : names.getLast? <;> simp [hend] at hlast
      rw [List.append_nil] at hsteps'
      rw [hjoin', ← hsteps', List.map_append, List.append_assoc]
      rfl

end Path

namespace FileSystem

variable {fs : FileSystem} {path root : Path} {names : List EntryName} {n : EntryName}
  {k k' : Nat} {here p q R : Place} {node node' : Node} {spot : Spot}

theorem bytes_ne_nil_of_stat {found : Spot × Node} (h : fs.stat path = .ok found) :
    path.bytes ≠ [] := by
  intro hnil
  unfold stat look resolve at h
  rw [hnil] at h
  simp at h

/-- A path below a root is followed as the root is, and from there on name by name. -/
theorem exists_start_below (h : fs.stat root = .ok (some R, node)) :
    ∃ here first k, Leads fs linkLimit here first k R ∧ ∀ names, names ≠ [] →
      fs.start (root.below names).isAbsolute (root.below names).steps =
        .ok (some (here, first ++ names.map .down)) := by
  have hroot := bytes_ne_nil_of_stat h
  obtain ⟨front, gaps, hsteps, hgaps, hbelow⟩ := Path.exists_steps_below root
  obtain ⟨here, rest, hstart, hwalk⟩ := follow_eq_ok_iff.1 (follow_of_stat h)
  obtain ⟨k, hleads⟩ := walk_eq_ok_iff.1 hwalk
  have hidle : ∀ s ∈ gaps, s.isIdle = true := by
    rcases hgaps with rfl | rfl
    · simp
    · simp [Step.isIdle]
  rw [hsteps] at hstart
  obtain ⟨first, hfirst, rfl⟩ := exists_start_of_append_idle hidle hstart
  obtain ⟨j, q, hled, hstay⟩ := hleads.split
  obtain ⟨rfl, rfl⟩ := hstay.of_idle hidle
  refine ⟨here, first, _, hled, fun names hnames => ?_⟩
  rw [hbelow names hnames, Path.isAbsolute_below hroot]
  exact start_append hfirst _

/-- A path below a root leads from the place of the root on. -/
theorem exists_leads_below (hroot : fs.stat root = .ok (some R, node))
    (h : fs.stat (root.below names) = .ok (spot, node')) :
    ∃ k k' q, spot = some q ∧ Leads fs k R (names.map .down) k' q := by
  by_cases hnil : names = []
  · subst hnil
    obtain ⟨rfl, -⟩ := Prod.mk.inj (Except.ok.inj (hroot.symm.trans h))
    exact ⟨0, 0, R, rfl, .done 0 R⟩
  · obtain ⟨here, first, k, hleads, hstart⟩ := exists_start_below hroot
    have hfollow := follow_of_stat h
    unfold follow at hfollow
    rw [hstart names hnil] at hfollow
    simp only [hleads.walk_append] at hfollow
    obtain ⟨q, hwalk, rfl⟩ := map_eq_ok_iff.1 hfollow
    obtain ⟨k', hbelow⟩ := walk_eq_ok_iff.1 hwalk
    exact ⟨k, k', q, rfl, hbelow⟩

/-- Names that lead on without a link lead to the place that they name. -/
theorem Leads.eq_of_names (h : Leads fs k here (names.map .down) k' p)
    (hlink : ∀ t, t ≠ [] → t <+: names → ∀ target,
      fs.find? (t.reverse ++ here) ≠ some (.link target)) : p = names.reverse ++ here := by
  induction names generalizing here with
  | nil =>
    cases h
    rfl
  | cons n names ih =>
    cases h with
    | into hf hs hnode hnot hrest =>
      rw [List.reverse_cons, List.append_assoc, List.singleton_append]
      refine ih hrest fun t ht hinit => ?_
      have := hlink (n :: t) (List.cons_ne_nil n t) ((List.prefix_cons_inj n).2 hinit)
      rwa [List.reverse_cons, List.append_assoc, List.singleton_append] at this
    | link hf hs hnode htarget hrest =>
      exact absurd hnode (hlink [n] (List.cons_ne_nil n []) ⟨names, rfl⟩ _)

/-- An entry of a folder is on the path to it. -/
theorem mem_way_join (h : fs.stat path = .ok (some p, node)) (n : EntryName) :
    n :: p ∈ fs.way (path.join ⟨n.bytes⟩) := by
  obtain ⟨here, first, k, hleads, hstart⟩ := exists_start_below h
  show n :: p ∈ fs.way (path.below [n])
  rw [way_eq (hstart [n] (List.cons_ne_nil n [])), hleads.mem_places_append]
  refine .inr ?_
  cases k <;> exact mem_placesPlain_down p n []

/-- An entry of a folder that is no link is what its path leads to. -/
theorem eq_of_stat_join (h : fs.stat path = .ok (some p, node))
    (hn : fs.find? (n :: p) = some node') (hlink : node'.isLink = false)
    {found : Spot × Node} (hjoin : fs.stat (path.join ⟨n.bytes⟩) = .ok found) :
    found = (some (n :: p), node') := by
  obtain ⟨spot, m⟩ := found
  obtain ⟨k, k', q, rfl, hleads⟩ :=
    exists_leads_below h (show fs.stat (path.below [n]) = _ from hjoin)
  obtain rfl : q = n :: p := hleads.eq_of_names fun t ht hinit target hfind => by
    obtain rfl : t = [n] := hinit.eq_of_length_le (List.length_pos_iff.2 ht)
    obtain rfl : node' = .link target := by
      rw [List.reverse_singleton, List.singleton_append, hn] at hfind
      exact Option.some.inj hfind
    cases hlink
  have hm := find?_of_stat hjoin
  rw [hn] at hm
  rw [Option.some.inj hm]

end FileSystem

end PhotoTally
