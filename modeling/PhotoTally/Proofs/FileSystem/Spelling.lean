import PhotoTally.Proofs.FileSystem.Places
import PhotoTally.Proofs.Path

/-!
# Other spellings of a path

Idle steps at the end of a path to a folder can be left out or put in (`exists_leads_of_dropIdle`),
and a relative path can be spelt from the root (`follow_of_absolute`): all of these lead to the same
place.
-/

namespace PhotoTally

/-! ## Steps of segments -/

theorem Step.ofSegment_bytes (n : EntryName) : Step.ofSegment n.bytes = .down n := by
  obtain ⟨bs, hbs⟩ := n
  obtain ⟨hnil, -, -, -, hdot, hdots⟩ := id hbs
  unfold Step.ofSegment
  rw [if_neg hnil, if_neg hdot, if_neg hdots, dif_pos hbs]

theorem Step.map_ofSegment_names (p : Place) :
    (p.reverse.map (·.bytes)).map Step.ofSegment = p.reverse.map .down := by
  rw [List.map_map]
  exact List.map_congr_left fun n _ => Step.ofSegment_bytes n

theorem Step.isIdle_ofSegment {s : List UInt8} (h : Path.isIdle s = true) :
    (Step.ofSegment s).isIdle = true := by
  unfold Path.isIdle at h
  rw [Bool.or_eq_true, decide_eq_true_eq, decide_eq_true_eq] at h
  rcases h with rfl | rfl
  · rfl
  · rfl

/-- A segment that is a name is not idle. -/
theorem Step.isIdle_of_ofSegment {s : List UInt8} {n : EntryName}
    (h : Step.ofSegment s = .down n) : Path.isIdle s = false := by
  rw [Bool.eq_false_iff]
  intro hidle
  have := Step.isIdle_ofSegment hidle
  rw [h] at this
  cases this

theorem Step.bytes_of_ofSegment {s : List UInt8} {n : EntryName}
    (h : Step.ofSegment s = .down n) : n.bytes = s := by
  unfold Step.ofSegment at h
  split_ifs at h
  cases h
  rfl

namespace FileSystem

variable {fs : FileSystem} {k k' : Nat} {here p : Place} {steps rest : List Step} {mode : Mode}

/-! ## Idle steps -/

/-- Idle steps lead nowhere else. -/
theorem Leads.of_idle (h : Leads fs k here steps k' p) (hidle : ∀ s ∈ steps, s.isIdle = true) :
    k' = k ∧ p = here := by
  induction h with
  | done => exact ⟨rfl, rfl⟩
  | gap _ _ ih => exact ih (List.forall_mem_cons.1 hidle).2
  | stay _ _ _ ih => exact ih (List.forall_mem_cons.1 hidle).2
  | up _ _ _ _ => exact absurd (List.forall_mem_cons.1 hidle).1 (by decide)
  | into _ _ _ _ _ _ => exact absurd (List.forall_mem_cons.1 hidle).1 (by simp [Step.isIdle])
  | link _ _ _ _ _ _ => exact absurd (List.forall_mem_cons.1 hidle).1 (by simp [Step.isIdle])

/-- A folder that may be searched can be stayed in. -/
theorem leads_idle (hf : fs.find? here = some (.folder mode)) (hs : mode.grants .search = true)
    (k : Nat) (hidle : ∀ s ∈ steps, s.isIdle = true) : Leads fs k here steps k here := by
  induction steps with
  | nil => exact .done k here
  | cons step rest ih =>
    rw [List.forall_mem_cons] at hidle
    cases step with
    | gap => exact .gap hf (ih hidle.2)
    | stay => exact .stay hf hs (ih hidle.2)
    | up => exact absurd hidle.1 (by decide)
    | down n => exact absurd hidle.1 (by simp [Step.isIdle])
    | refused e => exact absurd hidle.1 (by simp [Step.isIdle])

theorem places_of_idle (k : Nat) (here : Place) (hidle : ∀ s ∈ steps, s.isIdle = true) :
    ∀ q ∈ fs.places k here steps, q = here := by
  induction steps with
  | nil =>
    intro q hq
    rwa [places_nil, List.mem_singleton] at hq
  | cons step rest ih =>
    rw [List.forall_mem_cons] at hidle
    intro q hq
    rw [places_idle hidle.1, List.mem_cons] at hq
    exact hq.elim id (ih hidle.2 q)

theorem Leads.append {j : Nat} {q : Place} (h : Leads fs k here steps k' p)
    (hrest : Leads fs k' p rest j q) : Leads fs k here (steps ++ rest) j q := by
  induction h with
  | done => exact hrest
  | gap hf _ ih => exact .gap hf (ih hrest)
  | stay hf hs _ ih => exact .stay hf hs (ih hrest)
  | up hf hs _ ih => exact .up hf hs (ih hrest)
  | into hf hs hn hlink _ ih => exact .into hf hs hn hlink (ih hrest)
  | link hf hs hn htarget _ ih =>
    have := ih hrest
    rw [List.append_assoc] at this
    exact .link hf hs hn htarget this

/-- Where a path begins does not depend on idle steps at its end. -/
theorem start_append_idle (fromRoot : Bool) (steps : List Step)
    (hidle : ∀ s ∈ rest, s.isIdle = true) :
    fs.start fromRoot (steps ++ rest) =
      (fs.start fromRoot steps).map (Option.map fun begun => (begun.1, begun.2 ++ rest)) := by
  unfold start
  split_ifs
  · rfl
  · rfl
  · have hnil : rest.dropWhile Step.isIdle = [] := List.dropWhile_eq_nil_iff.2 hidle
    rw [List.dropWhile_append, hnil]
    cases hfirst : steps.dropWhile Step.isIdle with
    | nil => rfl
    | cons step more => cases step <;> rfl

/-- A path without the idle steps at its end begins where it does with them. -/
theorem exists_start_of_append_idle {fromRoot : Bool} {all : List Step}
    (hidle : ∀ s ∈ rest, s.isIdle = true)
    (h : fs.start fromRoot (steps ++ rest) = .ok (some (here, all))) :
    ∃ first, fs.start fromRoot steps = .ok (some (here, first)) ∧ all = first ++ rest := by
  rw [start_append_idle fromRoot steps hidle] at h
  cases hbegin : fs.start fromRoot steps with
  | error e =>
    rw [hbegin] at h
    cases h
  | ok begun =>
    rw [hbegin] at h
    cases begun with
    | none => cases h
    | some begun =>
      cases h
      exact ⟨_, rfl, rfl⟩

/-- Two spellings that differ only in idle segments at their ends lead to the same folder, and look
at the same places. -/
theorem exists_leads_of_dropIdle {s t : List (List UInt8)} {fromRoot : Bool}
    (h : Path.dropIdle t = Path.dropIdle s)
    (hstart : fs.start fromRoot (s.map .ofSegment) = .ok (some (here, rest)))
    (hleads : Leads fs k here rest k' p) (hf : fs.find? p = some (.folder mode))
    (hs : mode.grants .search = true) :
    ∃ steps, fs.start fromRoot (t.map .ofSegment) = .ok (some (here, steps)) ∧
      Leads fs k here steps k' p ∧ ∀ q, q ∈ fs.places k here steps ↔ q ∈ fs.places k here rest := by
  obtain ⟨idle₁, hidle₁, hall₁⟩ := Path.exists_dropIdle_append s
  obtain ⟨idle₂, hidle₂, hall₂⟩ := Path.exists_dropIdle_append t
  have hsteps {idle : List (List UInt8)} (hall : ∀ s ∈ idle, Path.isIdle s) :
      ∀ step ∈ idle.map Step.ofSegment, step.isIdle = true := by
    intro step hstep
    obtain ⟨s, hs, rfl⟩ := List.mem_map.1 hstep
    exact Step.isIdle_ofSegment (hall s hs)
  rw [hidle₁, List.map_append] at hstart
  obtain ⟨first, hfirst, rfl⟩ := exists_start_of_append_idle (hsteps hall₁) hstart
  obtain ⟨j, q, hled, hstay⟩ := hleads.split
  obtain ⟨rfl, rfl⟩ := hstay.of_idle (hsteps hall₁)
  refine ⟨first ++ idle₂.map .ofSegment, ?_, ?_, fun q => ?_⟩
  · rw [hidle₂, List.map_append, start_append_idle _ _ (hsteps hall₂), h, hfirst]
    rfl
  · exact hled.append (leads_idle hf hs _ (hsteps hall₂))
  · have hend := mem_places_of_walk hled.walk_eq
    rw [hled.mem_places_append, hled.mem_places_append]
    constructor
    · rintro (hq | hq)
      · exact .inl hq
      · rw [places_of_idle _ _ (hsteps hall₂) q hq]
        exact .inl hend
    · rintro (hq | hq)
      · exact .inl hq
      · rw [places_of_idle _ _ (hsteps hall₁) q hq]
        exact .inl hend

/-! ## From the root -/

theorem slash_not_mem_bytes (n : EntryName) : Path.slash ∉ n.bytes := n.valid.2.2.1

theorem slash_not_mem_names (p : Place) :
    ∀ s ∈ ([] : List UInt8) :: p.reverse.map (·.bytes), Path.slash ∉ s := by
  intro s hs
  rcases List.mem_cons.1 hs with rfl | hs
  · exact List.not_mem_nil
  · obtain ⟨n, -, rfl⟩ := List.mem_map.1 hs
    exact slash_not_mem_bytes n

theorem path_eq_joinAll (h : p ≠ []) :
    p.path = ⟨Text.joinAll Path.slash ([] :: p.reverse.map (·.bytes))⟩ := by
  rw [Text.joinAll_cons_of_ne_nil (by simpa using h)]
  rfl

/-- Only the path of the root ends in a slash. -/
theorem getLast?_path {place : Place} (h : place ≠ []) :
    place.path.bytes.getLast? ≠ some Path.slash := by
  cases place with
  | nil => exact absurd rfl h
  | cons n parent =>
    obtain ⟨front, hfront⟩ := Text.exists_joinAll_concat Path.slash
      (parent.reverse.map (·.bytes)) n.bytes
    have hbytes : Place.path (n :: parent) = ⟨(Path.slash :: front) ++ n.bytes⟩ := by
      rw [Place.path, List.reverse_cons, List.map_append, List.map_singleton, hfront]
      rfl
    rw [hbytes, List.getLast?_append_of_ne_nil _ n.valid.1]
    intro hslash
    exact slash_not_mem_bytes n (List.mem_of_getLast? hslash)

/-- The segments of a path that is spelt from the root. -/
theorem segments_join_path (place : Place) {path : Path} (h : path.isAbsolute = false) :
    (place.path.join path).segments =
      [] :: (place.reverse.map (·.bytes) ++ path.segments) := by
  by_cases hplace : place = []
  · subst hplace
    have hjoin : (Place.path []).join path = ⟨Path.slash :: path.bytes⟩ := by
      simp [Path.join, h, Place.path, Text.joinAll]
    rw [hjoin]
    show Text.splitAll _ ([] ++ Path.slash :: path.bytes) = _
    rw [Text.splitAll_append_cons List.not_mem_nil]
    rfl
  · have hjoin : place.path.join path = ⟨place.path.bytes ++ Path.slash :: path.bytes⟩ := by
      unfold Path.join
      rw [h, if_neg Bool.false_ne_true, if_neg]
      simpa [Place.path] using getLast?_path hplace
    rw [hjoin, path_eq_joinAll hplace]
    exact Text.splitAll_joinAll_append (List.cons_ne_nil _ _) (slash_not_mem_names place) _

/-- Names that lead through folders only, without a link, lead to the place that they name. -/
theorem Leads.of_names {names : List EntryName} (h : Leads fs k here (names.map .down) k' p)
    (hfolders : ∀ q ∈ (names.reverse ++ here).tails, fs.isFolder q = true) :
    k' = k ∧ p = names.reverse ++ here ∧
      ∀ q ∈ fs.places k here (names.map .down), fs.isFolder q = true := by
  induction names generalizing here with
  | nil =>
    cases h
    refine ⟨rfl, rfl, fun q hq => ?_⟩
    rw [List.map_nil, places_nil, List.mem_singleton] at hq
    exact hfolders q (hq ▸ (List.mem_tails _ _).2 List.suffix_rfl)
  | cons n names ih =>
    have hbelow : names.reverse ++ n :: here = (n :: names).reverse ++ here := by
      rw [List.reverse_cons, List.append_assoc, List.singleton_append]
    rw [← hbelow] at hfolders ⊢
    have hn : fs.isFolder (n :: here) = true :=
      hfolders _ ((List.mem_tails _ _).2 (List.suffix_append _ _))
    obtain ⟨mode, hmode⟩ := exists_mode hn
    cases h with
    | into hf hs hnode hlink hrest =>
      obtain ⟨hk, hp, hplaces⟩ := ih hrest hfolders
      refine ⟨hk, hp, fun q hq => ?_⟩
      rw [List.map_cons, places_into hnode hlink, List.mem_cons] at hq
      rcases hq with rfl | hq
      · exact isFolder_of_find? hf
      · exact hplaces q hq
    | link hf hs hnode htarget hrest =>
      rw [hmode] at hnode
      cases hnode

/-- The steps of a relative path that is spelt from the root. -/
theorem steps_join_workFolder {path : Path} (h : path.isAbsolute = false) :
    (fs.workFolder.path.join path).steps =
      (.gap :: fs.workFolder.reverse.map .down) ++ path.steps := by
  rw [Path.steps, segments_join_path _ h, List.map_cons, List.map_append,
    Step.map_ofSegment_names]
  rfl

/-- A path that is spelt from the root leads to the same place, through folders and the places that
were on it before. -/
theorem follow_of_absolute {path spelt : Path} (htree : fs.IsTree)
    (habsolute : fs.absolute path = .ok spelt)
    (h : fs.follow .target spelt.isAbsolute spelt.steps = .ok (some p)) :
    fs.follow .target path.isAbsolute path.steps = .ok (some p) ∧
      ∀ q ∈ fs.way spelt, fs.isFolder q = true ∨ q ∈ fs.way path := by
  unfold absolute at habsolute
  split_ifs at habsolute with habs hremoved
  · obtain rfl := Except.ok.inj habsolute
    exact ⟨h, fun q hq => .inr hq⟩
  · obtain rfl := Except.ok.inj habsolute
    rw [Bool.not_eq_true] at habs hremoved
    have hroot : (fs.workFolder.path.join path).isAbsolute = true := by
      rw [Path.isAbsolute_iff]
      exact ⟨_, by simp [Path.segments, Text.splitAll_ne_nil], segments_join_path _ habs⟩
    have hstart : fs.start true ((.gap :: fs.workFolder.reverse.map .down) ++ path.steps) =
        .ok (some ([], (.gap :: fs.workFolder.reverse.map .down) ++ path.steps)) := rfl
    have hstart' :
        fs.start path.isAbsolute path.steps = .ok (some (fs.workFolder, path.steps)) := by
      rw [habs, start, if_neg Bool.false_ne_true, hremoved]
      rfl
    rw [hroot, steps_join_workFolder habs] at h
    rw [way_eq (by rw [hroot, steps_join_workFolder habs, hstart]), way_eq hstart']
    obtain ⟨here, rest, hbegin, hwalk⟩ := follow_eq_ok_iff.1 h
    obtain ⟨rfl, rfl⟩ := Prod.mk.inj (Option.some.inj (Except.ok.inj (hstart.symm.trans hbegin)))
    obtain ⟨k', hleads⟩ := walk_eq_ok_iff.1 hwalk
    obtain ⟨j, q', hnames, hrest⟩ := hleads.split
    cases hnames with
    | gap hf hnames =>
      have hfolders : ∀ q ∈ (fs.workFolder.reverse.reverse ++ []).tails, fs.isFolder q = true := by
        rw [List.reverse_reverse, List.append_nil]
        exact htree.isFolder_tails (htree.work hremoved)
      obtain ⟨rfl, rfl, hplaces⟩ := hnames.of_names hfolders
      rw [List.reverse_reverse, List.append_nil] at hrest
      refine ⟨?_, fun r hr => ?_⟩
      · exact follow_eq_ok_iff.2 ⟨_, _, hstart', hrest.walk_eq⟩
      · have hlead := Leads.gap hf hnames
        rw [hlead.mem_places_append, places_idle rfl, List.mem_cons] at hr
        rw [List.reverse_reverse, List.append_nil] at hr
        rcases hr with (rfl | hr) | hr
        · exact .inl rfl
        · exact .inl (hplaces r hr)
        · exact .inr hr

end FileSystem

end PhotoTally
