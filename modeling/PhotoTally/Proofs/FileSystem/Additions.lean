import PhotoTally.Proofs.FileSystem.Change
import PhotoTally.Proofs.FileSystem.Looks

/-!
# What is added to a file system

`fs.Keeps fs'` says that `fs'` has all nodes of `fs` as they are.  A path that leads somewhere in
`fs` goes through occupied places only, so it leads to the same in `fs'` (`Keeps.look_eq`).  A
folder that can be read there has the same entries here, with those that were added, and what a
traversal has visited there it visits here as well (`Keeps.mem_visitsBelow`).
-/

namespace PhotoTally.FileSystem

variable {fs fs' : FileSystem} {path : Path}

/-- Whether a file system has all nodes of another one. -/
abbrev Keeps (fs fs' : FileSystem) : Prop := fs.Agrees fs' fun p => (fs.find? p).isSome

theorem Keeps.find?_eq {p : Place} {node : Node} (h : fs.Keeps fs')
    (hp : fs.find? p = some node) : fs'.find? p = some node := by
  rw [h.find? p (by rw [hp]; rfl), hp]

theorem Keeps.trans {fs'' : FileSystem} (h : fs.Keeps fs') (h' : fs'.Keeps fs'') :
    fs.Keeps fs'' :=
  Agrees.trans h (h'.mono fun p hp => by rwa [h.find? p hp])

/-- A node at a free place is added. -/
theorem keeps_put {p : Place} (hp : fs.find? p = none) (node : Node) :
    fs.Keeps (fs.put p node) := by
  refine agrees_put ?_ node ?_
  · rintro rfl
    cases hp
  · rw [hp]
    exact Bool.false_ne_true

/-! ## Paths -/

/-- A path that leads somewhere looks at occupied places only. -/
theorem isSome_of_mem_way {found : Spot × Node} (h : fs.stat path = .ok found) {q : Place}
    (hq : q ∈ fs.way path) : (fs.find? q).isSome := by
  obtain ⟨spot, node⟩ := found
  have hfollow := follow_of_stat h
  cases hstart : fs.start path.isAbsolute path.steps with
  | error e => simp [way, hstart] at hq
  | ok begun =>
    cases begun with
    | none => simp [way, hstart] at hq
    | some begun =>
      obtain ⟨here, rest⟩ := begun
      unfold follow at hfollow
      rw [hstart] at hfollow
      obtain ⟨p, hwalk, rfl⟩ := map_eq_ok_iff.1 hfollow
      obtain ⟨k, hleads⟩ := walk_eq_ok_iff.1 hwalk
      rw [way_eq hstart] at hq
      exact hleads.isSome_of_mem_places (by rw [find?_of_stat h]; rfl) hq

/-- Steps that lead somewhere lead there after nodes were added. -/
theorem Keeps.leads {k k' : Nat} {here p : Place} {steps : List Step} (h : fs.Keeps fs')
    (hleads : Leads fs k here steps k' p) : Leads fs' k here steps k' p := by
  induction hleads with
  | done k here => exact .done k here
  | gap hf _ ih => exact .gap (h.find?_eq hf) ih
  | stay hf hs _ ih => exact .stay (h.find?_eq hf) hs ih
  | up hf hs _ ih => exact .up (h.find?_eq hf) hs ih
  | into hf hs hn hlink _ ih => exact .into (h.find?_eq hf) hs (h.find?_eq hn) hlink ih
  | link hf hs hn htarget _ ih => exact .link (h.find?_eq hf) hs (h.find?_eq hn) htarget ih

/-- A path that leads somewhere leads to the same after nodes were added. -/
theorem Keeps.look_eq {found : Spot × Node} (h : fs.Keeps fs') (hstat : fs.stat path = .ok found)
    (manner : Manner) : fs'.look manner path = fs.look manner path :=
  look_congr (h.mono fun _ => isSome_of_mem_way hstat)

theorem placesPlain_subset (h : fs.Keeps fs') {here : Place} {steps : List Step}
    {onLink onLink' : Place → Path → List Step → List Place}
    (hlink : ∀ here target rest, onLink here target rest ⊆ onLink' here target rest) :
    fs.placesPlain onLink here steps ⊆ fs'.placesPlain onLink' here steps := by
  induction steps generalizing here with
  | nil => exact List.Subset.refl _
  | cons step rest ih =>
    cases step with
    | gap => exact List.cons_subset_cons _ ih
    | stay => exact List.cons_subset_cons _ ih
    | up => exact List.cons_subset_cons _ ih
    | refused e => exact List.Subset.refl _
    | down n =>
      cases hfind : fs.find? (n :: here) with
      | none =>
        intro q hq
        simp only [placesPlain, hfind, List.mem_cons, List.not_mem_nil, or_false] at hq
        rcases hq with rfl | rfl
        · exact List.mem_cons_self
        · exact mem_placesPlain_down here n rest
      | some node =>
        have hfind' := h.find?_eq hfind
        cases node with
        | link target =>
          simp only [placesPlain, hfind, hfind']
          exact List.cons_subset_cons _ (List.cons_subset_cons _ (hlink here target rest))
        | folder _ =>
          simp only [placesPlain, hfind, hfind']
          exact List.cons_subset_cons _ ih
        | file _ _ =>
          simp only [placesPlain, hfind, hfind']
          exact List.cons_subset_cons _ ih
        | pipe _ =>
          simp only [placesPlain, hfind, hfind']
          exact List.cons_subset_cons _ ih

/-- After nodes were added a path still looks at the places that it looked at. -/
theorem Keeps.way_subset (h : fs.Keeps fs') : fs.way path ⊆ fs'.way path := by
  have hplaces (k : Nat) (here : Place) (steps : List Step) :
      fs.places k here steps ⊆ fs'.places k here steps := by
    induction k generalizing here steps with
    | zero => exact placesPlain_subset h fun _ _ _ => List.Subset.refl _
    | succ k ih => exact placesPlain_subset h fun here target rest => ih _ _
  unfold way
  rw [start_congr h]
  split
  · exact hplaces _ _ _
  · exact List.Subset.refl _

theorem Keeps.stat_eq {found : Spot × Node} (h : fs.Keeps fs') (hstat : fs.stat path = .ok found) :
    fs'.stat path = .ok found :=
  (h.look_eq hstat .target).trans hstat

/-! ## Folders -/

theorem readFolder_eq_ok_iff {here : Spot} {names : List EntryName} :
    fs.readFolder path = .ok (here, names) ↔
      (∃ n : Node, fs.stat path = .ok (here, n) ∧ n.isFolder = true ∧ n.mode.grants .read = true) ∧
        names = fs.namesIn here := by
  unfold readFolder
  cases fs.stat path with
  | error e => simp
  | ok found =>
    obtain ⟨spot, n⟩ := found
    cases hfolder : n.isFolder with
    | false => simp [hfolder]
    | true =>
      cases hread : n.mode.grants .read with
      | false => simp [hfolder, hread]
      | true =>
        simp only [hfolder, hread, Bool.not_true, Bool.false_eq_true, if_false, Except.ok.injEq,
          Prod.mk.injEq]
        constructor
        · rintro ⟨rfl, rfl⟩
          exact ⟨⟨n, ⟨rfl, rfl⟩, hfolder, hread⟩, rfl⟩
        · rintro ⟨⟨m, ⟨rfl, rfl⟩, -⟩, rfl⟩
          exact ⟨rfl, rfl⟩

/-- A folder that cannot be read cannot be read wherever its path leads to the same. -/
theorem readFolder_error_of_stat {fault : IoFault} (hstat : fs'.stat path = fs.stat path)
    (hread : fs.readFolder path = .error fault) : fs'.readFolder path = .error fault := by
  unfold readFolder at hread ⊢
  rw [hstat]
  cases hfound : fs.stat path with
  | error e => rwa [hfound] at hread
  | ok found =>
    obtain ⟨spot, n⟩ := found
    simp only [hfound] at hread ⊢
    split_ifs at hread ⊢
    · exact hread
    · exact hread

theorem mem_namesIn {here : Spot} {n : EntryName} :
    n ∈ fs.namesIn here ↔ (fs.entry? here n).isSome := by
  cases here with
  | none => simp [namesIn, entry?]
  | some place => exact mem_children

theorem Keeps.entry?_eq {here : Spot} {n : EntryName} {node : Node} (h : fs.Keeps fs')
    (hn : fs.entry? here n = some node) : fs'.entry? here n = some node := by
  obtain ⟨place, rfl, hfind⟩ := Option.bind_eq_some_iff.1 hn
  exact h.find?_eq hfind

/-- The entries that a folder had are among those that it has after nodes were added, in their
order. -/
theorem Keeps.filter_namesIn (h : fs.Keeps fs') (here : Spot) :
    (fs'.namesIn here).filter (fun n => (fs.entry? here n).isSome) = fs.namesIn here := by
  cases here with
  | none => rfl
  | some place =>
    refine eq_children ((pairwise_children fs' place).filter _) fun n => ?_
    rw [List.mem_filter, mem_namesIn]
    constructor
    · exact And.right
    · intro hn
      obtain ⟨node, hnode⟩ := Option.isSome_iff_exists.1 hn
      have hkept : fs'.entry? (some place) n = some node := h.entry?_eq hnode
      exact ⟨by rw [hkept]; rfl, hn⟩

/-- A folder that can be read is the same folder after nodes were added. -/
theorem Keeps.readFolder_eq {here : Spot} {names : List EntryName} (h : fs.Keeps fs')
    (hread : fs.readFolder path = .ok (here, names)) :
    fs'.readFolder path = .ok (here, fs'.namesIn here) := by
  obtain ⟨⟨n, hstat, hn⟩, -⟩ := readFolder_eq_ok_iff.1 hread
  exact readFolder_eq_ok_iff.2 ⟨⟨n, h.stat_eq hstat, hn⟩, rfl⟩

/-! ## Traversals -/

section Traversals

variable {arrange : List EntryName → List EntryName} {depth : Nat} {trail : Trail} {here : Spot}
  {n : EntryName} {v : Visit} {e : Entry}

theorem visitsBelow_of_error {fault : IoFault} (hread : fs.readFolder path = .error fault) :
    fs.visitsBelow arrange (depth + 1) trail path = [.error (.io path fault)] := by
  rw [visitsBelow, hread]

/-- A traversal visits each entry of a folder, and goes on below those that are folders. -/
theorem mem_visitsBelow (harrange : ∀ names n, n ∈ arrange names ↔ n ∈ names)
    {names : List EntryName} (hread : fs.readFolder path = .ok (here, names)) :
    v ∈ fs.visitsBelow arrange (depth + 1) trail path ↔
      ∃ n ∈ names, v = fs.visit ((path, here) :: trail) (path.join ⟨n.bytes⟩) here n ∨
        ∃ e, fs.visit ((path, here) :: trail) (path.join ⟨n.bytes⟩) here n = .ok e ∧
          e.kind = .folder ∧
          v ∈ fs.visitsBelow arrange depth ((path, here) :: trail) (path.join ⟨n.bytes⟩) := by
  rw [visitsBelow, hread]
  simp only [List.mem_flatMap, harrange]
  refine exists_congr fun n => and_congr_right fun _ => ?_
  cases fs.visit ((path, here) :: trail) (path.join ⟨n.bytes⟩) here n with
  | error f => simp
  | ok e => by_cases he : e.kind = .folder <;> simp [he]

/-- An entry that was visited is visited after nodes were added. -/
theorem Keeps.visit_eq (h : fs.Keeps fs') (hvisit : fs.visit trail path here n = .ok e) :
    fs'.visit trail path here n = .ok e := by
  unfold visit at hvisit ⊢
  cases hentry : fs.entry? here n with
  | none => simp [hentry] at hvisit
  | some node =>
    rw [h.entry?_eq hentry]
    rw [hentry] at hvisit
    cases node with
    | link target =>
      cases hstat : fs.stat path with
      | error fault => simp [hstat] at hvisit
      | ok found =>
        rw [h.stat_eq hstat]
        rwa [hstat] at hvisit
    | _ => exact hvisit

/-- What a traversal has visited it visits after nodes were added. -/
theorem Keeps.mem_visitsBelow (h : fs.Keeps fs')
    (harrange : ∀ names n, n ∈ arrange names ↔ n ∈ names)
    (hv : .ok e ∈ fs.visitsBelow arrange depth trail path) :
    .ok e ∈ fs'.visitsBelow arrange depth trail path := by
  induction depth generalizing trail path with
  | zero => exact hv
  | succ depth ih =>
    cases hread : fs.readFolder path with
    | error fault =>
      rw [visitsBelow_of_error hread, List.mem_singleton] at hv
      cases hv
    | ok found =>
      obtain ⟨here, names⟩ := found
      obtain ⟨n, hn, hvisit⟩ := (FileSystem.mem_visitsBelow harrange hread).1 hv
      obtain ⟨-, rfl⟩ := readFolder_eq_ok_iff.1 hread
      obtain ⟨node, hnode⟩ := Option.isSome_iff_exists.1 (mem_namesIn.1 hn)
      have hn' : n ∈ fs'.namesIn here := mem_namesIn.2 (by rw [h.entry?_eq hnode]; rfl)
      refine (FileSystem.mem_visitsBelow harrange (h.readFolder_eq hread)).2 ⟨n, hn', ?_⟩
      rcases hvisit with hvisit | ⟨folder, hvisit, hkind, hbelow⟩
      · exact .inl (h.visit_eq hvisit.symm).symm
      · exact .inr ⟨folder, h.visit_eq hvisit, hkind, ih hbelow⟩

end Traversals

end PhotoTally.FileSystem
