import PhotoTally.Proofs.FileSystem.Walk

/-!
# The places on a path

`fs.way path` lists the places that are looked at when `path` is followed through all links.
However a path is followed, only what stands at these places counts (`look_congr`), and the place
that it leads to is one of them (`mem_way_of_follow`).
-/

namespace PhotoTally.FileSystem

variable {fs fs' : FileSystem} {k k' : Nat} {here p : Place} {steps rest : List Step}
  {node : Node} {manner : Manner}

/-- The places that steps look at up to the first link; `onLink` goes on from there. -/
def placesPlain (fs : FileSystem) (onLink : Place → Path → List Step → List Place) :
    Place → List Step → List Place
  | here, [] => [here]
  | here, step :: rest =>
    here :: match step with
      | .gap | .stay => placesPlain fs onLink here rest
      | .up => placesPlain fs onLink here.tail rest
      | .refused _ => []
      | .down n =>
        match fs.find? (n :: here) with
        | none => [n :: here]
        | some (.link target) => (n :: here) :: onLink here target rest
        | some _ => placesPlain fs onLink (n :: here) rest

/-- The places that steps look at, going through at most the given number of links. -/
def places (fs : FileSystem) : Nat → Place → List Step → List Place
  | 0 => placesPlain fs fun _ _ _ => []
  | links + 1 => placesPlain fs fun here target rest =>
      places fs links (linkStart target here) (target.steps ++ rest)

/-- The places that are looked at when a path is followed through all links. -/
def way (fs : FileSystem) (path : Path) : List Place :=
  match fs.start path.isAbsolute path.steps with
  | .ok (some (here, steps)) => fs.places linkLimit here steps
  | _ => []

theorem way_eq {path : Path} (h : fs.start path.isAbsolute path.steps = .ok (some (here, rest))) :
    fs.way path = fs.places linkLimit here rest := by
  unfold way
  rw [h]

/-! ## One step -/

theorem mem_places_here (fs : FileSystem) (k : Nat) (here : Place) (steps : List Step) :
    here ∈ fs.places k here steps := by
  cases k <;> cases steps <;> simp [places, placesPlain]

theorem places_nil (fs : FileSystem) (k : Nat) (here : Place) : fs.places k here [] = [here] := by
  cases k <;> rfl

theorem places_idle {step : Step} (h : step.isIdle = true) (k : Nat) (rest : List Step) :
    fs.places k here (step :: rest) = here :: fs.places k here rest := by
  cases k <;> cases step <;> simp_all [places, placesPlain, Step.isIdle]

theorem places_up (k : Nat) (rest : List Step) :
    fs.places k here (.up :: rest) = here :: fs.places k here.tail rest := by
  cases k <;> simp [places, placesPlain]

theorem places_into {n : EntryName} (hn : fs.find? (n :: here) = some node)
    (hlink : node.isLink = false) (k : Nat) (rest : List Step) :
    fs.places k here (.down n :: rest) = here :: fs.places k (n :: here) rest := by
  cases k <;> cases node <;> simp_all [places, placesPlain, Node.isLink]

theorem places_link {n : EntryName} {target : Path}
    (hn : fs.find? (n :: here) = some (.link target)) (k : Nat) (rest : List Step) :
    fs.places (k + 1) here (.down n :: rest) =
      here :: (n :: here) :: fs.places k (linkStart target here) (target.steps ++ rest) := by
  simp [places, placesPlain, hn]

theorem places_missing {n : EntryName} (hn : fs.find? (n :: here) = none) (k : Nat)
    (rest : List Step) : fs.places k here (.down n :: rest) = [here, n :: here] := by
  cases k <;> simp [places, placesPlain, hn]

theorem places_link_zero {n : EntryName} {target : Path}
    (hn : fs.find? (n :: here) = some (.link target)) (rest : List Step) :
    fs.places 0 here (.down n :: rest) = [here, n :: here] := by
  simp [places, placesPlain, hn]

/-- Names look at the places that they lead to, and at what links among these look at. -/
theorem mem_places_of_names {S : Place → Prop} {names : List EntryName}
    (hlinks : ∀ q target, fs.find? q = some (.link target) → ∀ k rest,
      ∀ r ∈ fs.places k (linkStart target q.tail) (target.steps ++ rest), S r)
    (h : p ∈ fs.places k here (names.map .down)) :
    (∃ taken, taken <+: names ∧ p = taken.reverse ++ here) ∨ S p := by
  induction names generalizing here with
  | nil =>
    rw [List.map_nil, places_nil, List.mem_singleton] at h
    exact .inl ⟨[], List.prefix_rfl, h⟩
  | cons n names ih =>
    have hnear (h : p ∈ [here, n :: here]) :
        ∃ taken, taken <+: n :: names ∧ p = taken.reverse ++ here := by
      rcases List.mem_pair.1 h with rfl | rfl
      · exact ⟨[], List.nil_prefix, rfl⟩
      · exact ⟨[n], ⟨names, rfl⟩, rfl⟩
    rw [List.map_cons] at h
    cases hn : fs.find? (n :: here) with
    | none =>
      rw [places_missing hn] at h
      exact .inl (hnear h)
    | some node =>
      cases hlink : node.isLink with
      | false =>
        rw [places_into hn hlink, List.mem_cons] at h
        rcases h with rfl | h
        · exact .inl ⟨[], List.nil_prefix, rfl⟩
        · refine (ih h).imp_left ?_
          rintro ⟨taken, hinit, rfl⟩
          refine ⟨n :: taken, (List.prefix_cons_inj n).2 hinit, ?_⟩
          rw [List.reverse_cons, List.append_assoc, List.singleton_append]
      | true =>
        obtain ⟨target, rfl⟩ := exists_target hlink
        cases k with
        | zero =>
          rw [places_link_zero hn] at h
          exact .inl (hnear h)
        | succ k =>
          have hsplit : fs.places (k + 1) here (.down n :: names.map .down) = [here, n :: here] ++
              fs.places k (linkStart target here) (target.steps ++ names.map .down) :=
            places_link hn k _
          rw [hsplit, List.mem_append] at h
          exact h.imp hnear (hlinks _ target hn k _ p)

/-- Steps that have led somewhere look at more only from there on. -/
theorem Leads.mem_places_append (h : Leads fs k here steps k' p) (more : List Step) (q : Place) :
    q ∈ fs.places k here (steps ++ more) ↔
      q ∈ fs.places k here steps ∨ q ∈ fs.places k' p more := by
  induction h with
  | done k here =>
    rw [List.nil_append, places_nil, List.mem_singleton, eq_comm]
    refine ⟨.inr, ?_⟩
    rintro (rfl | hq)
    · exact mem_places_here fs k _ more
    · exact hq
  | gap _ _ ih =>
    rw [List.cons_append, places_idle rfl, places_idle rfl, List.mem_cons, List.mem_cons, ih,
      or_assoc]
  | stay _ _ _ ih =>
    rw [List.cons_append, places_idle rfl, places_idle rfl, List.mem_cons, List.mem_cons, ih,
      or_assoc]
  | up _ _ _ ih =>
    rw [List.cons_append, places_up, places_up, List.mem_cons, List.mem_cons, ih, or_assoc]
  | into _ _ hn hlink _ ih =>
    rw [List.cons_append, places_into hn hlink, places_into hn hlink, List.mem_cons,
      List.mem_cons, ih, or_assoc]
  | link _ _ hn _ _ ih =>
    rw [List.cons_append, places_link hn, places_link hn, List.mem_cons, List.mem_cons,
      List.mem_cons, List.mem_cons, ← List.append_assoc, ih, or_assoc, or_assoc]

/-! ## What counts for a walk -/

theorem mem_placesPlain_down {onPlaces : Place → Path → List Step → List Place} (here : Place)
    (n : EntryName) (rest : List Step) :
    n :: here ∈ fs.placesPlain onPlaces here (.down n :: rest) := by
  rw [placesPlain]
  split
  · simp
  · simp
  · cases rest <;> simp [placesPlain]

theorem walkPlain_congr {onLink onLink' : Place → Path → List Step → Except OsError Place}
    {onPlaces : Place → Path → List Step → List Place}
    (hlink : ∀ here target rest, (∀ q ∈ onPlaces here target rest, fs'.find? q = fs.find? q) →
      onLink' here target rest = onLink here target rest)
    (h : ∀ q ∈ fs.placesPlain onPlaces here steps, fs'.find? q = fs.find? q) :
    fs'.walkPlain manner onLink' here steps = fs.walkPlain manner onLink here steps := by
  induction steps generalizing here with
  | nil => rfl
  | cons step rest ih =>
    have hhere : fs'.find? here = fs.find? here := h here (by simp [placesPlain])
    rw [walkPlain.eq_def, walkPlain.eq_def]
    simp only [hhere]
    cases step with
    | gap => simp only [@ih here fun q hq => h q (List.mem_cons_of_mem _ hq)]
    | stay => simp only [@ih here fun q hq => h q (List.mem_cons_of_mem _ hq)]
    | up => simp only [@ih here.tail fun q hq => h q (List.mem_cons_of_mem _ hq)]
    | refused e => rfl
    | down n =>
      simp only [h _ (mem_placesPlain_down _ _ _)]
      cases hfind : fs.find? (n :: here) with
      | none => rfl
      | some node =>
        cases node with
        | link target =>
          simp only [hlink here target rest fun q hq => h q (by simp [placesPlain, hfind, hq])]
        | folder _ => simp only [@ih (n :: here) fun q hq => h q (by simp [placesPlain, hfind, hq])]
        | file _ _ => simp only [@ih (n :: here) fun q hq => h q (by simp [placesPlain, hfind, hq])]
        | pipe _ => simp only [@ih (n :: here) fun q hq => h q (by simp [placesPlain, hfind, hq])]

/-- A walk ends alike in file systems that agree on the places which its steps look at. -/
theorem walk_congr (h : ∀ q ∈ fs.places k here steps, fs'.find? q = fs.find? q) :
    fs'.walk manner k here steps = fs.walk manner k here steps := by
  induction k generalizing here steps with
  | zero => exact walkPlain_congr (fun _ _ _ _ => rfl) h
  | succ k ih =>
    refine walkPlain_congr (fun here target rest hq => ?_) h
    have hrest := ih hq
    unfold linkStart at hrest
    rw [hrest]

theorem placesPlain_congr {onPlaces onPlaces' : Place → Path → List Step → List Place}
    (hlink : ∀ here target rest, (∀ q ∈ onPlaces here target rest, fs'.find? q = fs.find? q) →
      onPlaces' here target rest = onPlaces here target rest)
    (h : ∀ q ∈ fs.placesPlain onPlaces here steps, fs'.find? q = fs.find? q) :
    fs'.placesPlain onPlaces' here steps = fs.placesPlain onPlaces here steps := by
  induction steps generalizing here with
  | nil => rfl
  | cons step rest ih =>
    rw [placesPlain.eq_def, placesPlain.eq_def]
    cases step with
    | gap => simp only [@ih here fun q hq => h q (List.mem_cons_of_mem _ hq)]
    | stay => simp only [@ih here fun q hq => h q (List.mem_cons_of_mem _ hq)]
    | up => simp only [@ih here.tail fun q hq => h q (List.mem_cons_of_mem _ hq)]
    | refused e => rfl
    | down n =>
      simp only [h _ (mem_placesPlain_down _ _ _)]
      cases hfind : fs.find? (n :: here) with
      | none => rfl
      | some node =>
        cases node with
        | link target =>
          simp only [hlink here target rest fun q hq => h q (by simp [placesPlain, hfind, hq])]
        | folder _ => simp only [@ih (n :: here) fun q hq => h q (by simp [placesPlain, hfind, hq])]
        | file _ _ => simp only [@ih (n :: here) fun q hq => h q (by simp [placesPlain, hfind, hq])]
        | pipe _ => simp only [@ih (n :: here) fun q hq => h q (by simp [placesPlain, hfind, hq])]

/-- Steps look at the same places in file systems that agree on these. -/
theorem places_congr (h : ∀ q ∈ fs.places k here steps, fs'.find? q = fs.find? q) :
    fs'.places k here steps = fs.places k here steps := by
  induction k generalizing here steps with
  | zero => exact placesPlain_congr (fun _ _ _ _ => rfl) h
  | succ k ih => exact placesPlain_congr (fun _ _ _ hq => ih hq) h

theorem mem_placesPlain_of_walkPlain {onLink : Place → Path → List Step → Except OsError Place}
    {onPlaces : Place → Path → List Step → List Place}
    (hlink : ∀ here target rest, onLink here target rest = .ok p → p ∈ onPlaces here target rest)
    (h : fs.walkPlain manner onLink here steps = .ok p) :
    p ∈ fs.placesPlain onPlaces here steps := by
  induction steps generalizing here with
  | nil =>
    obtain rfl := Except.ok.inj h
    exact List.mem_singleton_self _
  | cons step rest ih =>
    rw [walkPlain.eq_def] at h
    simp only at h
    split at h
    · cases step with
      | gap =>
        simp only at h
        split_ifs at h
        exact List.mem_cons_of_mem _ (ih h)
      | stay =>
        simp only at h
        split_ifs at h
        exact List.mem_cons_of_mem _ (ih h)
      | up =>
        simp only at h
        split_ifs at h
        exact List.mem_cons_of_mem _ (ih h)
      | refused e =>
        simp only at h
        split_ifs at h
      | down n =>
        refine List.mem_cons_of_mem _ ?_
        cases hn : fs.find? (n :: here) with
        | none =>
          simp only [hn] at h ⊢
          split_ifs at h
          obtain rfl := Except.ok.inj h
          exact List.mem_singleton_self _
        | some node =>
          cases node with
          | link target =>
            simp only [hn] at h ⊢
            split_ifs at h
            · obtain rfl := Except.ok.inj h
              exact List.mem_cons_self
            · exact List.mem_cons_of_mem _ (hlink _ _ _ h)
          | _ =>
            simp only [hn] at h ⊢
            split_ifs at h
            exact ih h
    · cases h

/-- Where a walk ends it looks, too. -/
theorem mem_places_of_walk (h : fs.walk manner k here steps = .ok p) :
    p ∈ fs.places k here steps := by
  induction k generalizing here steps with
  | zero =>
    refine mem_placesPlain_of_walkPlain (fun _ _ _ hp => ?_) h
    cases hp
  | succ k ih =>
    refine mem_placesPlain_of_walkPlain (fun here target rest hp => ?_) h
    by_cases htarget : target.bytes = []
    · rw [if_pos htarget] at hp
      cases hp
    · rw [if_neg htarget] at hp
      exact ih hp

/-! ## What counts for a path -/

/-- Whether two file systems have the same working folder, and the same at some places. -/
structure Agrees (fs fs' : FileSystem) (P : Place → Prop) : Prop where
  workFolder : fs'.workFolder = fs.workFolder
  workRemoved : fs'.workRemoved = fs.workRemoved
  find? : ∀ q, P q → fs'.find? q = fs.find? q

variable {P Q : Place → Prop} {path : Path}

theorem Agrees.mono (h : fs.Agrees fs' P) (hQ : ∀ q, Q q → P q) : fs.Agrees fs' Q :=
  ⟨h.workFolder, h.workRemoved, fun q hq => h.find? q (hQ q hq)⟩

theorem Agrees.symm (h : fs.Agrees fs' P) : fs'.Agrees fs P :=
  ⟨h.workFolder.symm, h.workRemoved.symm, fun q hq => (h.find? q hq).symm⟩

theorem Agrees.trans {fs'' : FileSystem} (h : fs.Agrees fs' P) (h' : fs'.Agrees fs'' P) :
    fs.Agrees fs'' P :=
  ⟨h'.workFolder.trans h.workFolder, h'.workRemoved.trans h.workRemoved,
    fun q hq => (h'.find? q hq).trans (h.find? q hq)⟩

theorem start_congr (h : fs.Agrees fs' P) (fromRoot : Bool) (steps : List Step) :
    fs'.start fromRoot steps = fs.start fromRoot steps := by
  unfold start
  rw [h.workFolder, h.workRemoved]

theorem follow_congr (h : fs.Agrees fs' (· ∈ fs.way path)) :
    fs'.follow manner path.isAbsolute path.steps = fs.follow manner path.isAbsolute path.steps := by
  have hplaces := h.find?
  unfold way at hplaces
  unfold follow
  rw [start_congr h]
  split
  · rfl
  · rfl
  · rename_i here steps hs
    rw [hs] at hplaces
    rw [walk_congr hplaces]

theorem way_congr (h : fs.Agrees fs' (· ∈ fs.way path)) : fs'.way path = fs.way path := by
  have hplaces := h.find?
  unfold way at hplaces ⊢
  rw [start_congr h]
  split
  · rename_i here steps hs
    rw [hs] at hplaces
    exact places_congr hplaces
  · rfl

theorem mem_way_of_follow (h : fs.follow manner path.isAbsolute path.steps = .ok (some p)) :
    p ∈ fs.way path := by
  obtain ⟨here, rest, hstart, hwalk⟩ := follow_eq_ok_iff.1 h
  rw [way_eq hstart]
  exact mem_places_of_walk hwalk

/-- A path leads to the same in file systems that agree on the places on it. -/
theorem look_congr (h : fs.Agrees fs' (· ∈ fs.way path)) :
    fs'.look manner path = fs.look manner path := by
  unfold look resolve
  rw [follow_congr h]
  split_ifs
  · rfl
  · rfl
  · rfl
  · cases hf : fs.follow manner path.isAbsolute path.steps with
    | error e => rfl
    | ok spot =>
      cases spot with
      | none => rfl
      | some q => simp only [Except.mapError, nodeAt?, h.find? q (mem_way_of_follow hf)]

end PhotoTally.FileSystem
