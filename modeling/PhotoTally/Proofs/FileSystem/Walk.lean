import PhotoTally.FileSystem.Resolve
import PhotoTally.Proofs.Outcome
import Mathlib.Tactic

/-!
# Following a path through all links

`Leads fs k here steps k' p` says step by step what `walk` does when every link is followed: from
`here`, with `k` links left, `steps` lead to `p` with `k'` links left (`walk_eq_ok_iff`).  Steps can
be taken one after the other (`Leads.walk_append`, `Leads.split`), and with fewer links a walk ends
alike or runs out of them (`walk_of_le`, `walk_links`).
-/

namespace PhotoTally.FileSystem

variable {fs : FileSystem} {k k' : Nat} {here p : Place} {steps rest : List Step} {mode : Mode}

theorem walk_nil (fs : FileSystem) (k : Nat) (here : Place) :
    fs.walk .target k here [] = .ok here := by
  cases k <;> simp [walk, walkPlain]

theorem exists_mode (h : fs.isFolder here = true) :
    ∃ mode, fs.find? here = some (.folder mode) := by
  unfold isFolder at h
  cases hf : fs.find? here with
  | none => simp [hf] at h
  | some n => cases n <;> simp_all [Node.isFolder]

theorem isFolder_of_find? (h : fs.find? here = some (.folder mode)) : fs.isFolder here = true := by
  unfold isFolder
  rw [h]
  rfl

theorem exists_target {n : Node} (h : n.isLink = true) : ∃ target, n = .link target := by
  cases n <;> simp_all [Node.isLink]

/-! ## Trees -/

/-- Whether everything stands in a folder, and the working folder is one unless it was removed. -/
structure IsTree (fs : FileSystem) : Prop where
  parent : ∀ p, (fs.find? p).isSome → fs.isFolder p.tail = true
  work : fs.workRemoved = false → fs.isFolder fs.workFolder = true

instance (fs : FileSystem) : Decidable fs.IsTree :=
  decidable_of_iff ((∀ p ∈ fs.nodes.keys, fs.isFolder p.tail = true) ∧
      (fs.workRemoved = false → fs.isFolder fs.workFolder = true)) <| by
    -- the root is the only place that is not among the keys though something stands there
    have hroot : fs.isFolder ([] : Place).tail = true := rfl
    have hkeys {p : Place} (hp : p ≠ []) : p ∈ fs.nodes.keys ↔ (fs.find? p).isSome := by
      simp [find?, hp]
    constructor
    · rintro ⟨hparent, hwork⟩
      refine ⟨fun p hp => ?_, hwork⟩
      by_cases hnil : p = []
      · rwa [hnil]
      · exact hparent p ((hkeys hnil).2 hp)
    · rintro ⟨hparent, hwork⟩
      refine ⟨fun p hp => ?_, hwork⟩
      by_cases hnil : p = []
      · rwa [hnil]
      · exact hparent p ((hkeys hnil).1 hp)

theorem IsTree.isFolder_tail (h : fs.IsTree) (hp : fs.isFolder p = true) :
    fs.isFolder p.tail = true := by
  obtain ⟨mode, hmode⟩ := exists_mode hp
  exact h.parent p (by rw [hmode]; rfl)

/-- All that leads to a folder are folders. -/
theorem IsTree.isFolder_tails (h : fs.IsTree) (hp : fs.isFolder p = true) :
    ∀ q ∈ p.tails, fs.isFolder q = true := by
  induction p with
  | nil =>
    intro q hq
    obtain rfl : q = [] := by simpa [List.tails] using hq
    exact hp
  | cons n p ih =>
    intro q hq
    rw [List.tails_cons, List.mem_cons] at hq
    rcases hq with rfl | hq
    · exact hp
    · exact ih (h.isFolder_tail hp) q hq

/-- What something stands in are folders. -/
theorem IsTree.isFolder_of_suffix {q : Place} (h : fs.IsTree) (hp : (fs.find? p).isSome)
    (hq : q <:+ p) (hne : q ≠ p) : fs.isFolder q = true := by
  cases p with
  | nil => exact absurd (List.suffix_nil.1 hq) hne
  | cons n p =>
    refine h.isFolder_tails (h.parent _ hp) q ((List.mem_tails _ _).2 ?_)
    exact (List.suffix_cons_iff.1 hq).resolve_left hne

/-- Nothing stands above a free place. -/
theorem IsTree.find?_of_suffix {q : Place} (h : fs.IsTree) (hq : fs.find? q = none)
    (hsuffix : q <:+ p) : fs.find? p = none := by
  by_contra hp
  have hsome : (fs.find? p).isSome := Option.isSome_iff_ne_none.2 hp
  by_cases hne : q = p
  · exact hp (hne ▸ hq)
  · obtain ⟨mode, hmode⟩ := exists_mode (h.isFolder_of_suffix hsome hsuffix hne)
    rw [hq] at hmode
    cases hmode

/-! ## One step -/

/-- Where the steps of a link's target begin. -/
def linkStart (target : Path) (here : Place) : Place := if target.isAbsolute then [] else here

theorem walk_gap (h : fs.find? here = some (.folder mode)) (k : Nat) (rest : List Step) :
    fs.walk .target k here (.gap :: rest) = fs.walk .target k here rest := by
  cases k <;> simp [walk, walkPlain, h, Manner.isSlashed, Manner.target]

theorem walk_notFolder (h : fs.isFolder here = false) (k : Nat) (step : Step) (rest : List Step) :
    fs.walk .target k here (step :: rest) = .error .notFolder := by
  unfold isFolder at h
  cases k <;> cases hf : fs.find? here with
  | none => simp [walk, walkPlain, hf]
  | some n => cases n <;> simp_all [walk, walkPlain, Node.isFolder]

theorem walk_denied (h : fs.find? here = some (.folder mode)) (hs : mode.grants .search = false)
    {step : Step} (hstep : step ≠ .gap) (k : Nat) (rest : List Step) :
    fs.walk .target k here (step :: rest) = .error .denied := by
  cases k <;> simp [walk, walkPlain, h, hs, hstep]

section Searched

variable (h : fs.find? here = some (.folder mode)) (hs : mode.grants .search = true)

include h hs

theorem walk_stay (k : Nat) (rest : List Step) :
    fs.walk .target k here (.stay :: rest) = fs.walk .target k here rest := by
  cases k <;> simp [walk, walkPlain, h, hs, Manner.isSlashed, Manner.target]

theorem walk_up (k : Nat) (rest : List Step) :
    fs.walk .target k here (.up :: rest) = fs.walk .target k here.tail rest := by
  cases k <;> simp [walk, walkPlain, h, hs, Manner.isSlashed, Manner.target]

theorem walk_refused (k : Nat) (e : OsError) (rest : List Step) :
    fs.walk .target k here (.refused e :: rest) = .error e := by
  cases k <;> simp [walk, walkPlain, h, hs, Manner.isSlashed, Manner.target]

theorem walk_missing {n : EntryName} (hn : fs.find? (n :: here) = none) (k : Nat)
    (rest : List Step) : fs.walk .target k here (.down n :: rest) = .error .notFound := by
  cases k <;> simp [walk, walkPlain, h, hs, hn, Manner.isSlashed, Manner.target]

theorem walk_into {n : EntryName} {node : Node} (hn : fs.find? (n :: here) = some node)
    (hlink : node.isLink = false) (k : Nat) (rest : List Step) :
    fs.walk .target k here (.down n :: rest) = fs.walk .target k (n :: here) rest := by
  cases k <;> cases node <;>
    simp_all [walk, walkPlain, Manner.isSlashed, Manner.target, Node.isLink]

theorem walk_link_zero {n : EntryName} {target : Path}
    (hn : fs.find? (n :: here) = some (.link target)) (rest : List Step) :
    fs.walk .target 0 here (.down n :: rest) = .error .tooManyLinks := by
  simp [walk, walkPlain, h, hs, hn, Manner.isSlashed, Manner.target]

theorem walk_link {n : EntryName} {target : Path}
    (hn : fs.find? (n :: here) = some (.link target)) (k : Nat) (rest : List Step) :
    fs.walk .target (k + 1) here (.down n :: rest) =
      if target.bytes = [] then .error .notFound
      else fs.walk .target k (linkStart target here) (target.steps ++ rest) := by
  simp [walk, walkPlain, h, hs, hn, Manner.isSlashed, Manner.target, linkStart]

end Searched

/-! ## Whole walks -/

/-- From `here`, with `k` links left, the steps lead to `p` with `k'` links left. -/
inductive Leads (fs : FileSystem) : Nat → Place → List Step → Nat → Place → Prop where
  | done (k : Nat) (here : Place) : Leads fs k here [] k here
  | gap {k k' : Nat} {here p : Place} {rest : List Step} {mode : Mode} :
      fs.find? here = some (.folder mode) → Leads fs k here rest k' p →
        Leads fs k here (.gap :: rest) k' p
  | stay {k k' : Nat} {here p : Place} {rest : List Step} {mode : Mode} :
      fs.find? here = some (.folder mode) → mode.grants .search = true →
        Leads fs k here rest k' p → Leads fs k here (.stay :: rest) k' p
  | up {k k' : Nat} {here p : Place} {rest : List Step} {mode : Mode} :
      fs.find? here = some (.folder mode) → mode.grants .search = true →
        Leads fs k here.tail rest k' p → Leads fs k here (.up :: rest) k' p
  | into {k k' : Nat} {here p : Place} {rest : List Step} {mode : Mode} {n : EntryName}
      {node : Node} : fs.find? here = some (.folder mode) → mode.grants .search = true →
        fs.find? (n :: here) = some node → node.isLink = false →
        Leads fs k (n :: here) rest k' p → Leads fs k here (.down n :: rest) k' p
  | link {k k' : Nat} {here p : Place} {rest : List Step} {mode : Mode} {n : EntryName}
      {target : Path} : fs.find? here = some (.folder mode) → mode.grants .search = true →
        fs.find? (n :: here) = some (.link target) → target.bytes ≠ [] →
        Leads fs k (linkStart target here) (target.steps ++ rest) k' p →
        Leads fs (k + 1) here (.down n :: rest) k' p

/-- After the steps have led somewhere the walk goes on from there. -/
theorem Leads.walk_append (h : Leads fs k here steps k' p) (more : List Step) :
    fs.walk .target k here (steps ++ more) = fs.walk .target k' p more := by
  induction h with
  | done => rfl
  | gap hf _ ih => rw [List.cons_append, walk_gap hf, ih]
  | stay hf hs _ ih => rw [List.cons_append, walk_stay hf hs, ih]
  | up hf hs _ ih => rw [List.cons_append, walk_up hf hs, ih]
  | into hf hs hn hlink _ ih => rw [List.cons_append, walk_into hf hs hn hlink, ih]
  | link hf hs hn htarget _ ih =>
    rw [List.cons_append, walk_link hf hs hn, if_neg htarget, ← List.append_assoc, ih]

theorem Leads.walk_eq (h : Leads fs k here steps k' p) :
    fs.walk .target k here steps = .ok p := by
  have := h.walk_append []
  rwa [List.append_nil, walk_nil] at this

theorem exists_leads (h : fs.walk .target k here steps = .ok p) :
    ∃ k', Leads fs k here steps k' p := by
  induction k using Nat.strong_induction_on generalizing here steps with
  | _ k ihk =>
    induction steps generalizing here with
    | nil =>
      rw [walk_nil, Except.ok.injEq] at h
      exact ⟨k, h ▸ .done k here⟩
    | cons step rest ih =>
      cases hf : fs.isFolder here with
      | false => rw [walk_notFolder hf] at h; cases h
      | true =>
        obtain ⟨mode, hmode⟩ := exists_mode hf
        by_cases hgap : step = .gap
        · subst hgap
          rw [walk_gap hmode] at h
          obtain ⟨k', hrest⟩ := ih h
          exact ⟨k', .gap hmode hrest⟩
        cases hs : mode.grants .search with
        | false => rw [walk_denied hmode hs hgap] at h; cases h
        | true =>
          cases step with
          | gap => exact absurd rfl hgap
          | stay =>
            rw [walk_stay hmode hs] at h
            obtain ⟨k', hrest⟩ := ih h
            exact ⟨k', .stay hmode hs hrest⟩
          | up =>
            rw [walk_up hmode hs] at h
            obtain ⟨k', hrest⟩ := ih h
            exact ⟨k', .up hmode hs hrest⟩
          | refused e => rw [walk_refused hmode hs] at h; cases h
          | down n =>
            cases hn : fs.find? (n :: here) with
            | none => rw [walk_missing hmode hs hn] at h; cases h
            | some node =>
              cases hlink : node.isLink with
              | false =>
                rw [walk_into hmode hs hn hlink] at h
                obtain ⟨k', hrest⟩ := ih h
                exact ⟨k', .into hmode hs hn hlink hrest⟩
              | true =>
                obtain ⟨target, rfl⟩ := exists_target hlink
                cases k with
                | zero => rw [walk_link_zero hmode hs hn] at h; cases h
                | succ k =>
                  rw [walk_link hmode hs hn] at h
                  split_ifs at h with htarget
                  obtain ⟨k', hrest⟩ := ihk k (Nat.lt_succ_self k) h
                  exact ⟨k', .link hmode hs hn htarget hrest⟩

theorem walk_eq_ok_iff : fs.walk .target k here steps = .ok p ↔ ∃ k', Leads fs k here steps k' p :=
  ⟨exists_leads, fun ⟨_, h⟩ => h.walk_eq⟩

/-- What leads somewhere with some steps more has led somewhere with those before them. -/
theorem Leads.split {s t : List Step} (h : Leads fs k here (s ++ t) k' p) :
    ∃ j q, Leads fs k here s j q ∧ Leads fs j q t k' p := by
  generalize hst : s ++ t = steps at h
  induction h generalizing s with
  | done k here =>
    obtain ⟨rfl, rfl⟩ := List.append_eq_nil_iff.1 hst
    exact ⟨k, here, .done k here, .done k here⟩
  | gap hf hrest ih =>
    rcases List.append_eq_cons_iff.1 hst with ⟨rfl, rfl⟩ | ⟨s', rfl, rfl⟩
    · exact ⟨_, _, .done _ _, .gap hf hrest⟩
    · obtain ⟨j, q, hs', ht⟩ := ih rfl
      exact ⟨j, q, .gap hf hs', ht⟩
  | stay hf hs hrest ih =>
    rcases List.append_eq_cons_iff.1 hst with ⟨rfl, rfl⟩ | ⟨s', rfl, rfl⟩
    · exact ⟨_, _, .done _ _, .stay hf hs hrest⟩
    · obtain ⟨j, q, hs', ht⟩ := ih rfl
      exact ⟨j, q, .stay hf hs hs', ht⟩
  | up hf hs hrest ih =>
    rcases List.append_eq_cons_iff.1 hst with ⟨rfl, rfl⟩ | ⟨s', rfl, rfl⟩
    · exact ⟨_, _, .done _ _, .up hf hs hrest⟩
    · obtain ⟨j, q, hs', ht⟩ := ih rfl
      exact ⟨j, q, .up hf hs hs', ht⟩
  | into hf hs hn hlink hrest ih =>
    rcases List.append_eq_cons_iff.1 hst with ⟨rfl, rfl⟩ | ⟨s', rfl, rfl⟩
    · exact ⟨_, _, .done _ _, .into hf hs hn hlink hrest⟩
    · obtain ⟨j, q, hs', ht⟩ := ih rfl
      exact ⟨j, q, .into hf hs hn hlink hs', ht⟩
  | link hf hs hn htarget hrest ih =>
    rcases List.append_eq_cons_iff.1 hst with ⟨rfl, rfl⟩ | ⟨s', rfl, rfl⟩
    · exact ⟨_, _, .done _ _, .link hf hs hn htarget hrest⟩
    · obtain ⟨j, q, hs', ht⟩ := ih (List.append_assoc _ _ _)
      exact ⟨j, q, .link hf hs hn htarget hs', ht⟩

/-- A place from which steps lead on is a folder. -/
theorem Leads.isFolder {step : Step} (h : Leads fs k here (step :: rest) k' p) :
    fs.isFolder here = true := by
  unfold FileSystem.isFolder
  cases h <;> simp_all [Node.isFolder]

/-- What leads to a folder begins in one. -/
theorem Leads.isFolder_start (h : Leads fs k here steps k' p) (hp : fs.isFolder p = true) :
    fs.isFolder here = true := by
  cases steps with
  | nil =>
    cases h
    exact hp
  | cons step rest => exact h.isFolder

/-- What leads to something begins at something. -/
theorem Leads.isSome_start (h : Leads fs k here steps k' p) (hp : (fs.find? p).isSome) :
    (fs.find? here).isSome := by
  cases steps with
  | nil =>
    cases h
    exact hp
  | cons step rest =>
    obtain ⟨mode, hmode⟩ := exists_mode h.isFolder
    rw [hmode]
    rfl

/-! ## The number of links -/

theorem walkPlain_of_le {manner : Manner}
    {onLink onLink' : Place → Path → List Step → Except OsError Place}
    (hlink : ∀ here target rest, onLink' here target rest = .error .tooManyLinks ∨
      onLink' here target rest = onLink here target rest) :
    fs.walkPlain manner onLink' here steps = .error .tooManyLinks ∨
      fs.walkPlain manner onLink' here steps = fs.walkPlain manner onLink here steps := by
  induction steps generalizing here with
  | nil => exact .inr rfl
  | cons step rest ih =>
    rw [walkPlain.eq_def, walkPlain.eq_def]
    simp only
    -- both walks take the same branch, and only a link or the rest of the steps tells them apart
    split
    · split
      · exact .inr rfl
      split
      · exact .inr rfl
      cases step with
      | gap => exact ih
      | stay => exact ih
      | up => exact ih
      | refused e => exact .inr rfl
      | down n =>
        simp only
        split
        · exact .inr rfl
        cases fs.find? (n :: here) with
        | none => exact .inr rfl
        | some node =>
          cases node with
          | link target =>
            simp only
            split
            · exact .inr rfl
            · exact hlink here target rest
          | _ =>
            simp only
            split
            · exact .inr rfl
            · exact ih
    · exact .inr rfl

/-- With fewer links left a walk ends alike, or runs out of links. -/
theorem walk_of_le {manner : Manner} {j : Nat} (hj : j ≤ k) :
    fs.walk manner j here steps = .error .tooManyLinks ∨
      fs.walk manner j here steps = fs.walk manner k here steps := by
  induction k generalizing j here steps with
  | zero =>
    obtain rfl : j = 0 := by omega
    exact .inr rfl
  | succ k ih =>
    cases j with
    | zero => exact walkPlain_of_le fun _ _ _ => .inl rfl
    | succ j =>
      refine walkPlain_of_le fun here target rest => ?_
      by_cases htarget : target.bytes = []
      · rw [if_pos htarget, if_pos htarget]
        exact .inr rfl
      · rw [if_neg htarget, if_neg htarget]
        exact ih (by omega)

/-- However many links are left, a walk ends alike if it does not run out of them. -/
theorem walk_links {manner : Manner} {i j : Nat}
    (hi : fs.walk manner i here steps ≠ .error .tooManyLinks)
    (hj : fs.walk manner j here steps ≠ .error .tooManyLinks) :
    fs.walk manner i here steps = fs.walk manner j here steps := by
  rcases Nat.le_total i j with hij | hji
  · exact (walk_of_le hij).resolve_left hi
  · exact ((walk_of_le hji).resolve_left hj).symm

/-! ## Whole paths -/

/-- Where the steps of a path begin does not depend on those that come later. -/
theorem start_append {fromRoot : Bool} {steps rest : List Step} {here : Place}
    (h : fs.start fromRoot steps = .ok (some (here, rest))) (more : List Step) :
    fs.start fromRoot (steps ++ more) = .ok (some (here, rest ++ more)) := by
  unfold start at *
  split_ifs at h ⊢
  · simp_all
  · simp_all
  · split at h
    · cases h
    · rename_i first hfirst
      rw [List.dropWhile_append, hfirst]
      simp_all
    · cases h

/-- A path leads to a place if its steps begin somewhere and lead there. -/
theorem follow_eq_ok_iff {manner : Manner} {fromRoot : Bool} :
    fs.follow manner fromRoot steps = .ok (some p) ↔ ∃ here rest,
      fs.start fromRoot steps = .ok (some (here, rest)) ∧
        fs.walk manner linkLimit here rest = .ok p := by
  unfold follow
  cases fs.start fromRoot steps with
  | error e => simp
  | ok begun =>
    cases begun with
    | none => simp
    | some begun =>
      obtain ⟨here, rest⟩ := begun
      simp [map_eq_ok_iff]

/-- What a path leads to is what stands where its steps lead. -/
theorem stat_eq_walk {path : Path} (hzero : 0 ∉ path.bytes) (hempty : path.bytes ≠ [])
    (hshort : path.bytes.length < pathLimit)
    (hstart : fs.start path.isAbsolute path.steps = .ok (some (here, rest))) :
    fs.stat path =
      match fs.walk .target linkLimit here rest with
      | .error e => .error (.os e)
      | .ok q =>
        match fs.find? q with
        | some node => .ok (some q, node)
        | none => .error (.os .notFound) := by
  have hfollow : fs.follow .target path.isAbsolute path.steps =
      (fs.walk .target linkLimit here rest).map some := by
    unfold follow
    rw [hstart]
  unfold stat look resolve
  rw [if_neg hzero, if_neg hempty, if_neg (by omega), hfollow]
  cases fs.walk .target linkLimit here rest <;> rfl

theorem follow_of_stat {path : Path} {spot : Spot} {node : Node}
    (h : fs.stat path = .ok (spot, node)) :
    fs.follow .target path.isAbsolute path.steps = .ok spot := by
  unfold stat look resolve at h
  split_ifs at h
  cases hfollow : fs.follow .target path.isAbsolute path.steps with
  | error e =>
    rw [hfollow] at h
    cases h
  | ok found =>
    rw [hfollow] at h
    simp only [Except.mapError] at h
    split at h
    · cases h
      rfl
    · cases h

theorem find?_of_stat {path : Path} {node : Node} (h : fs.stat path = .ok (some p, node)) :
    fs.find? p = some node := by
  unfold stat look at h
  split at h
  · cases h
  · split at h
    · rename_i n hn
      cases h
      exact hn
    · cases h

end PhotoTally.FileSystem
