import PhotoTally.FileSystem.Edit
import PhotoTally.Proofs.FileSystem.Places

/-!
# Paths after a change at one place

A change at a place that is not on a path leaves what the path leads to as it was (`stat_put`,
`readText_put`).  A file that takes the place which a path names is what the path leads to from then
on, unless the place is on the way there: then the file bars the way (`walk_put_last`,
`walk_put_through`).  Any other path leads to where it led, to the file, or nowhere
(`walk_put_cases`).
-/

namespace PhotoTally.FileSystem

variable {fs : FileSystem} {k k' : Nat} {here p place : Place} {steps rest : List Step}
  {node : Node} {n : EntryName} {mode : Mode}

/-! ## A change elsewhere -/

theorem find?_put_of_ne (hp : place ≠ []) {q : Place} (hq : q ≠ place) (node : Node) :
    (fs.put place node).find? q = fs.find? q := by
  rw [find?_put fs hp, if_neg hq]

theorem find?_put_self (hp : place ≠ []) (node : Node) :
    (fs.put place node).find? place = some node := by
  rw [find?_put fs hp, if_pos rfl]

/-- Nothing changes if what is put at a place is there already. -/
theorem put_self (hp : place ≠ []) (h : fs.find? place = some node) : fs.put place node = fs := by
  have hplace : fs.nodes[place]? = some node := by simpa [find?, hp] using h
  have : fs.nodes.insert place node = fs.nodes := by
    apply Std.ExtTreeMap.ext_getElem?
    intro q
    rw [Std.ExtTreeMap.getElem?_insert]
    split_ifs with hq
    · rw [← Std.LawfulEqCmp.eq_of_compare hq, hplace]
    · rfl
  rw [put, this]

/-- What is put at a place changes nothing elsewhere. -/
theorem agrees_put (hp : place ≠ []) (node : Node) {P : Place → Prop} (h : ¬ P place) :
    fs.Agrees (fs.put place node) P := by
  refine ⟨rfl, rfl, fun q hq => find?_put_of_ne hp ?_ node⟩
  rintro rfl
  exact h hq

/-- What a path leads to is not changed by what is put at a place that is not on it. -/
theorem stat_put (hp : place ≠ []) (node : Node) {path : Path} (h : place ∉ fs.way path) :
    (fs.put place node).stat path = fs.stat path :=
  look_congr (agrees_put hp node h)

/-- Paths that lead to the same have the same text. -/
theorem readText_of_stat {fs' : FileSystem} {path path' : Path}
    (h : fs'.stat path' = fs.stat path) : fs'.readText path' = fs.readText path := by
  unfold readText readBytes
  rw [h]

theorem readText_put (hp : place ≠ []) (node : Node) {path : Path} (h : place ∉ fs.way path) :
    (fs.put place node).readText path = fs.readText path :=
  readText_of_stat (stat_put hp node h)

/-! ## Dead ends -/

/-- Whether no folder is reached through a place: it is no folder, and if it is a link then its
target leads to something else before the links run out. -/
def IsDeadEnd (fs : FileSystem) (place : Place) : Prop :=
  fs.isFolder place = false ∧ ∀ target, fs.find? place = some (.link target) →
    target.bytes ≠ [] → ∃ j,
      fs.walk .target j (linkStart target place.tail) target.steps ≠ .error .tooManyLinks ∧
      ∀ q, fs.walk .target j (linkStart target place.tail) target.steps = .ok q →
        fs.isFolder q = false

/-- The last name of a path that leads to no folder is a dead end. -/
theorem isDeadEnd_of_walk (hf : fs.find? p = some (.folder mode)) (hs : mode.grants .search = true)
    (hfree : fs.isFolder (n :: p) = false) (hpre : Leads fs k here steps k' p)
    (hlinks : fs.walk .target k here (steps ++ [.down n]) ≠ .error .tooManyLinks)
    (hend : ∀ q, fs.walk .target k here (steps ++ [.down n]) = .ok q → fs.isFolder q = false) :
    fs.IsDeadEnd (n :: p) := by
  refine ⟨hfree, fun target hn htarget => ?_⟩
  rw [hpre.walk_append] at hlinks hend
  cases k' with
  | zero =>
    rw [walk_link_zero hf hs hn] at hlinks
    exact absurd rfl hlinks
  | succ j =>
    rw [walk_link hf hs hn, if_neg htarget, List.append_nil] at hlinks hend
    exact ⟨j, hlinks, hend⟩

/-- A place that is looked at on the way to another one is a folder, or a link that is gone
through. -/
theorem Leads.of_mem_places (h : Leads fs k here steps k' p) {q : Place}
    (hq : q ∈ fs.places k here steps) :
    q = p ∨ fs.isFolder q = true ∨ ∃ target m rest, fs.find? q = some (.link target) ∧
      target.bytes ≠ [] ∧ Leads fs m (linkStart target q.tail) (target.steps ++ rest) k' p := by
  induction h with
  | done k here =>
    rw [places_nil, List.mem_singleton] at hq
    exact .inl hq
  | gap hf _ ih =>
    rw [places_idle rfl, List.mem_cons] at hq
    rcases hq with rfl | hq
    · exact .inr (.inl (isFolder_of_find? hf))
    · exact ih hq
  | stay hf _ _ ih =>
    rw [places_idle rfl, List.mem_cons] at hq
    rcases hq with rfl | hq
    · exact .inr (.inl (isFolder_of_find? hf))
    · exact ih hq
  | up hf _ _ ih =>
    rw [places_up, List.mem_cons] at hq
    rcases hq with rfl | hq
    · exact .inr (.inl (isFolder_of_find? hf))
    · exact ih hq
  | into hf _ hn hlink _ ih =>
    rw [places_into hn hlink, List.mem_cons] at hq
    rcases hq with rfl | hq
    · exact .inr (.inl (isFolder_of_find? hf))
    · exact ih hq
  | link hf _ hn htarget hrest ih =>
    rw [places_link hn, List.mem_cons, List.mem_cons] at hq
    rcases hq with rfl | rfl | hq
    · exact .inr (.inl (isFolder_of_find? hf))
    · exact .inr (.inr ⟨_, _, _, hn, htarget, hrest⟩)
    · exact ih hq

/-- What leads to something looks at occupied places only. -/
theorem Leads.isSome_of_mem_places (h : Leads fs k here steps k' p) (hp : (fs.find? p).isSome)
    {q : Place} (hq : q ∈ fs.places k here steps) : (fs.find? q).isSome := by
  rcases h.of_mem_places hq with rfl | hfolder | ⟨target, -, -, hlink, -⟩
  · exact hp
  · obtain ⟨mode, hmode⟩ := exists_mode hfolder
    rw [hmode]
    rfl
  · rw [hlink]
    rfl

/-- A dead end is not on the way to a folder. -/
theorem IsDeadEnd.not_mem_places (hplace : fs.IsDeadEnd place) (h : Leads fs k here steps k' p)
    (hp : fs.isFolder p = true) : place ∉ fs.places k here steps := by
  intro hmem
  obtain ⟨hfree, hlink⟩ := hplace
  rcases h.of_mem_places hmem with rfl | hfolder | ⟨target, m, rest, hfind, htarget, hthrough⟩
  · rw [hp] at hfree
    cases hfree
  · rw [hfolder] at hfree
    cases hfree
  · obtain ⟨j, hlinks, hend⟩ := hlink target hfind htarget
    -- the link's target would lead to a folder
    obtain ⟨i, q, hq, hrest⟩ := hthrough.split
    have hfolder : fs.isFolder q = true := by
      cases rest with
      | nil =>
        cases hrest
        exact hp
      | cons step rest => exact hrest.isFolder
    have hm : fs.walk .target m (linkStart target place.tail) target.steps ≠
        .error .tooManyLinks := by
      rw [hq.walk_eq]
      simp
    have hwalk := (walk_links hlinks hm).trans hq.walk_eq
    rw [hend q hwalk] at hfolder
    cases hfolder

theorem IsDeadEnd.not_mem_way {path : Path} (hplace : fs.IsDeadEnd place)
    (h : fs.follow .target path.isAbsolute path.steps = .ok (some p))
    (hp : fs.isFolder p = true) : place ∉ fs.way path := by
  obtain ⟨here, rest, hstart, hwalk⟩ := follow_eq_ok_iff.1 h
  obtain ⟨k, hleads⟩ := walk_eq_ok_iff.1 hwalk
  rw [way_eq hstart]
  exact hplace.not_mem_places hleads hp

/-- What is neither a folder nor a link is a dead end. -/
theorem isDeadEnd_of_find? (h : fs.find? place = some node) (hlink : node.isLink = false)
    (hnode : node.isFolder = false) : fs.IsDeadEnd place := by
  refine ⟨?_, fun target htarget => ?_⟩
  · rw [isFolder, h]
    exact hnode
  · rw [h] at htarget
    cases htarget
    cases hlink

/-! ## A file at the end of a path -/

section Put

variable (hf : fs.find? p = some (.folder mode)) (hs : mode.grants .search = true)
  (hnode : node.isLink = false)

include hf hs hnode in
/-- A file that is put at the last name of a path is what the path leads to, unless it is on the way
there. -/
theorem walk_put_last (hpre : Leads fs k here steps k' p) (h : n :: p ∉ fs.places k here steps) :
    (fs.put (n :: p) node).walk .target k here (steps ++ [.down n]) = .ok (n :: p) := by
  have hpre' : (fs.put (n :: p) node).walk .target k here steps = .ok p := by
    rw [walk_congr fun q hq => find?_put_of_ne (List.cons_ne_nil n p) (fun e => h (e ▸ hq)) node,
      hpre.walk_eq]
  obtain ⟨j, hleads⟩ := walk_eq_ok_iff.1 hpre'
  have hparent : (fs.put (n :: p) node).find? p = some (.folder mode) := by
    rw [find?_put_of_ne (List.cons_ne_nil n p) (List.cons_ne_self n p).symm node, hf]
  rw [hleads.walk_append, walk_into hparent hs (find?_put_self (List.cons_ne_nil n p) node) hnode,
    walk_nil]

end Put

section Bar

variable (hfree : fs.isFolder place = false) (hlink : node.isLink = false)
  (hnode : node.isFolder = false)

include hfree

theorem ne_nil_of_isFolder : place ≠ [] := by
  rintro rfl
  simp [isFolder, find?, Node.isFolder] at hfree

theorem ne_of_isFolder {q : Place} (hq : fs.find? q = some (.folder mode)) : q ≠ place := by
  rintro rfl
  rw [isFolder, hq] at hfree
  cases hfree

/-- A folder is not changed by what is put where there was none. -/
theorem find?_put_folder {q : Place} (hq : fs.find? q = some (.folder mode)) (node : Node) :
    (fs.put place node).find? q = some (.folder mode) := by
  rw [find?_put_of_ne (ne_nil_of_isFolder hfree) (ne_of_isFolder hfree hq) node, hq]

include hnode in
theorem isFolder_put_self : (fs.put place node).isFolder place = false := by
  rw [isFolder, find?_put_self (ne_nil_of_isFolder hfree) node]
  exact hnode

include hlink hnode in
/-- A file that is put on the way to a folder bars the way. -/
theorem walk_put_through (h : Leads fs k here steps k' p) (hp : fs.isFolder p = true)
    (hmem : place ∈ fs.places k here steps) {more : List Step} (hmore : more ≠ []) :
    (fs.put place node).walk .target k here (steps ++ more) = .error .notFolder := by
  have hfolder {q : Place} {mode : Mode} (hq : fs.find? q = some (.folder mode)) :
      (fs.put place node).find? q = some (.folder mode) := find?_put_folder hfree hq node
  -- steps that are left when the file is reached find no folder
  have hbar {m : EntryName} {here : Place} {mode : Mode} {rest : List Step} (j : Nat)
      (hm : m :: here = place) (hf : fs.find? here = some (.folder mode))
      (hs : mode.grants .search = true) :
      (fs.put place node).walk .target j here (.down m :: (rest ++ more)) = .error .notFolder := by
    subst hm
    rw [walk_into (hfolder hf) hs (find?_put_self (List.cons_ne_nil m here) node) hlink]
    cases hrest : rest ++ more with
    | nil => exact absurd (List.append_eq_nil_iff.1 hrest).2 hmore
    | cons step rest => exact walk_notFolder (isFolder_put_self hfree hnode) _ _ _
  induction h with
  | done k here =>
    rw [places_nil, List.mem_singleton] at hmem
    subst hmem
    rw [hp] at hfree
    cases hfree
  | gap hf _ ih =>
    rw [places_idle rfl, List.mem_cons] at hmem
    rw [List.cons_append, walk_gap (hfolder hf)]
    exact ih hp (hmem.resolve_left (ne_of_isFolder hfree hf).symm)
  | stay hf hs _ ih =>
    rw [places_idle rfl, List.mem_cons] at hmem
    rw [List.cons_append, walk_stay (hfolder hf) hs]
    exact ih hp (hmem.resolve_left (ne_of_isFolder hfree hf).symm)
  | up hf hs _ ih =>
    rw [places_up, List.mem_cons] at hmem
    rw [List.cons_append, walk_up (hfolder hf) hs]
    exact ih hp (hmem.resolve_left (ne_of_isFolder hfree hf).symm)
  | @into _ _ here _ _ _ m _ hf hs hn hlink _ ih =>
    rw [places_into hn hlink, List.mem_cons] at hmem
    by_cases hm : m :: here = place
    · exact hbar _ hm hf hs
    · have hn' := (find?_put_of_ne (ne_nil_of_isFolder hfree) hm node).trans hn
      rw [List.cons_append, walk_into (hfolder hf) hs hn' hlink]
      exact ih hp (hmem.resolve_left (ne_of_isFolder hfree hf).symm)
  | @link _ _ here _ _ _ m _ hf hs hn htarget _ ih =>
    rw [places_link hn, List.mem_cons, List.mem_cons] at hmem
    by_cases hm : m :: here = place
    · exact hbar _ hm hf hs
    · have hn' := (find?_put_of_ne (ne_nil_of_isFolder hfree) hm node).trans hn
      rw [List.cons_append, walk_link (hfolder hf) hs hn', if_neg htarget, ← List.append_assoc]
      exact ih hp ((hmem.resolve_left (ne_of_isFolder hfree hf).symm).resolve_left (Ne.symm hm))

end Bar

/-! ## A file on any path -/

/-- After a file was put at a place, a path leads to the same other place or to nothing as before,
or it leads to the file, or it leads to nothing as it would have to go through the file.  If it
leads to the file, it led before to what the file's name led to. -/
theorem walk_put_cases (htree : fs.IsTree) (hfree : fs.isFolder (n :: p) = false)
    (hlink : node.isLink = false) (hnode : node.isFolder = false) (k : Nat)
    (steps : List Step) (hhere : here ≠ n :: p) :
    ((fs.put (n :: p) node).walk .target k here steps = fs.walk .target k here steps ∧
        fs.walk .target k here steps ≠ .ok (n :: p)) ∨
      (fs.put (n :: p) node).walk .target k here steps = .error .notFolder ∨
      ((fs.put (n :: p) node).walk .target k here steps = .ok (n :: p) ∧
        ∃ j, fs.walk .target k here steps = fs.walk .target j p [.down n]) := by
  have hne {q : Place} (hq : fs.isFolder q = true) : q ≠ n :: p := by
    rintro rfl
    rw [hq] at hfree
    cases hfree
  induction k using Nat.strong_induction_on generalizing here steps with
  | _ k ihk =>
    induction steps generalizing here with
    | nil =>
      rw [walk_nil, walk_nil]
      exact .inl ⟨rfl, fun h => hhere (Except.ok.inj h)⟩
    | cons step rest ih =>
      cases hfolder : fs.isFolder here with
      | false =>
        have hfolder' : (fs.put (n :: p) node).isFolder here = false := by
          rwa [isFolder, find?_put_of_ne (List.cons_ne_nil n p) hhere node]
        rw [walk_notFolder hfolder, walk_notFolder hfolder']
        exact .inl ⟨rfl, by simp⟩
      | true =>
        obtain ⟨mode, hf⟩ := exists_mode hfolder
        have hf' := find?_put_folder hfree hf node
        by_cases hgap : step = .gap
        · subst hgap
          rw [walk_gap hf, walk_gap hf']
          exact ih hhere
        cases hs : mode.grants .search with
        | false =>
          rw [walk_denied hf hs hgap, walk_denied hf' hs hgap]
          exact .inl ⟨rfl, by simp⟩
        | true =>
          cases step with
          | gap => exact absurd rfl hgap
          | stay =>
            rw [walk_stay hf hs, walk_stay hf' hs]
            exact ih hhere
          | up =>
            rw [walk_up hf hs, walk_up hf' hs]
            exact ih (hne (htree.isFolder_tail hfolder))
          | refused e =>
            rw [walk_refused hf hs, walk_refused hf' hs]
            exact .inl ⟨rfl, by simp⟩
          | down m =>
            by_cases hm : m :: here = n :: p
            · obtain ⟨rfl, rfl⟩ := List.cons.inj hm
              rw [walk_into hf' hs (find?_put_self (List.cons_ne_nil m here) node) hlink]
              cases rest with
              | nil => exact .inr (.inr ⟨walk_nil _ _ _, k, rfl⟩)
              | cons step rest =>
                exact .inr (.inl (walk_notFolder (isFolder_put_self hfree hnode) _ _ _))
            · have hput : (fs.put (n :: p) node).find? (m :: here) = fs.find? (m :: here) :=
                find?_put_of_ne (List.cons_ne_nil n p) hm node
              cases hn : fs.find? (m :: here) with
              | none =>
                rw [walk_missing hf hs hn, walk_missing hf' hs (hput.trans hn)]
                exact .inl ⟨rfl, by simp⟩
              | some found =>
                cases hfound : found.isLink with
                | false =>
                  rw [walk_into hf hs hn hfound, walk_into hf' hs (hput.trans hn) hfound]
                  exact ih hm
                | true =>
                  obtain ⟨target, rfl⟩ := exists_target hfound
                  cases k with
                  | zero =>
                    rw [walk_link_zero hf hs hn, walk_link_zero hf' hs (hput.trans hn)]
                    exact .inl ⟨rfl, by simp⟩
                  | succ k =>
                    rw [walk_link hf hs hn, walk_link hf' hs (hput.trans hn)]
                    have hbegin : fs.isFolder (linkStart target here) = true := by
                      unfold linkStart
                      split_ifs
                      · rfl
                      · exact hfolder
                    split_ifs
                    · exact .inl ⟨rfl, by simp⟩
                    · exact ihk k (Nat.lt_succ_self k) _ (hne hbegin)

/-- A file can be put where no folder is without the tree falling apart. -/
theorem IsTree.put (htree : fs.IsTree) (hp : fs.isFolder p = true)
    (hfree : fs.isFolder (n :: p) = false) (node : Node) : (fs.put (n :: p) node).IsTree := by
  have hkeeps {q : Place} (hq : fs.isFolder q = true) :
      (fs.put (n :: p) node).isFolder q = true := by
    obtain ⟨mode, hmode⟩ := exists_mode hq
    exact isFolder_of_find? (find?_put_folder hfree hmode node)
  refine ⟨fun q hq => ?_, fun hremoved => hkeeps (htree.work hremoved)⟩
  by_cases hnew : q = n :: p
  · rw [hnew]
    exact hkeeps hp
  · rw [find?_put_of_ne (List.cons_ne_nil n p) hnew] at hq
    exact hkeeps (htree.parent q hq)

/-! ## Small file systems -/

/-- Whether a file system has no link is told from its nodes. -/
theorem not_link_of_nodes (h : ∀ e ∈ fs.nodes.toList, e.2.isLink = false) (p : Place)
    (target : Path) : fs.find? p ≠ some (.link target) := by
  intro hp
  unfold find? at hp
  split_ifs at hp
  · cases hp
  · cases h _ (Std.ExtTreeMap.mem_toList_iff_getElem?_eq_some.2 hp)

/-- The file system with these folders and these empty files, given by their paths from the root. -/
def ofPaths (folders files : List String) : FileSystem :=
  let made := folders.foldl
    (fun fs p => fs.put (Path.ofString p).place (.folder Mode.plainFolder)) (bare [])
  files.foldl (fun fs p => fs.put (Path.ofString p).place (.file Mode.plainFile .empty)) made

end PhotoTally.FileSystem
