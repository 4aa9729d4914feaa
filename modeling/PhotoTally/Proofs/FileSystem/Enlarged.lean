import PhotoTally.Proofs.FileSystem.Below
import PhotoTally.Proofs.FileSystem.Looks

/-!
# Enlarged trees

`Enlarged fs fs' root depth` says that nodes were added to `fs`, and that a path of at most `depth`
names below `root` comes to an added one only by the names that lead there from the root, not
through a link.  Then the path to an entry that was there before leads where it led
(`Enlarged.stat_eq`), and what a traversal below the root visits was visited before or is below an
added entry (`Enlarged.visitsBelow_or`).
-/

namespace PhotoTally.FileSystem

variable {fs fs' : FileSystem} {root path : Path} {depth : Nat} {names : List EntryName}
  {n : EntryName} {p q R : Place} {node node' : Node} {spot : Spot}

/-- Whether a node was added at a place. -/
structure IsNew (fs fs' : FileSystem) (p : Place) : Prop where
  free : fs.find? p = none
  taken : (fs'.find? p).isSome

instance (fs fs' : FileSystem) (p : Place) : Decidable (IsNew fs fs' p) :=
  decidable_of_iff (fs.find? p = none ∧ (fs'.find? p).isSome)
    ⟨fun h => ⟨h.1, h.2⟩, fun h => ⟨h.1, h.2⟩⟩

/-- Whether nodes were added that no link leads to from below a root. -/
structure Enlarged (fs fs' : FileSystem) (root : Path) (depth : Nat) : Prop where
  keeps : fs.Keeps fs'
  tree : fs.IsTree
  tree' : fs'.IsTree
  direct : ∀ p, IsNew fs fs' p → ∀ names, names.length ≤ depth → p ∈ fs'.way (root.below names) →
    ∃ R node taken, fs.stat root = .ok (some R, node) ∧ taken <+: names ∧ p = taken.reverse ++ R

/-! ## Paths -/

/-- A link that was there before is no folder. -/
theorem Keeps.not_link (h : fs.Keeps fs') (hp : fs'.isFolder p = true) (target : Path) :
    fs.find? p ≠ some (.link target) := by
  intro hlink
  rw [isFolder, h.find?_eq hlink] at hp
  cases hp

theorem Keeps.find?_of_not_new (h : fs.Keeps fs') (hp : ¬ IsNew fs fs' p) :
    fs'.find? p = fs.find? p := by
  cases hfind : fs.find? p with
  | some node => exact h.find?_eq hfind
  | none =>
    by_contra hne
    exact hp ⟨hfind, Option.isSome_iff_ne_none.2 hne⟩

/-- A path with no added node on it leads where it led. -/
theorem Keeps.stat_eq_of_way (h : fs.Keeps fs') (hway : ∀ p ∈ fs.way path, ¬ IsNew fs fs' p) :
    fs'.stat path = fs.stat path :=
  look_congr ⟨h.workFolder, h.workRemoved, fun p hp => h.find?_of_not_new (hway p hp)⟩

/-- Between a root and an added node there are folders. -/
theorem IsNew.isFolder_before (hp : IsNew fs fs' (names.reverse ++ R)) (htree : fs'.IsTree)
    {t : List EntryName} (ht : t <+: names) (hne : t ≠ names) :
    fs'.isFolder (t.reverse ++ R) = true := by
  obtain ⟨rest, rfl⟩ := ht
  refine htree.isFolder_of_suffix hp.taken ?_ ?_
  · rw [List.reverse_append, List.append_assoc]
    exact List.suffix_append _ _
  · intro heq
    have hlength := congrArg List.length heq
    have : rest = [] := by
      simpa using hlength
    exact hne (by rw [this, List.append_nil])

namespace Enlarged

/-- No link leads to an added node if none has it on its way. -/
theorem of_links (hkeeps : fs.Keeps fs') (htree : fs.IsTree) (htree' : fs'.IsTree)
    (hroot : fs.stat root = .ok (some R, node))
    (hlinks : ∀ q target, fs'.find? q = some (.link target) → ∀ k rest,
      ∀ p ∈ fs'.places k (linkStart target q.tail) (target.steps ++ rest), ¬ IsNew fs fs' p)
    (depth : Nat) : Enlarged fs fs' root depth := by
  refine ⟨hkeeps, htree, htree', fun p hp names _ hway => ?_⟩
  -- what is looked at on the way to the root was there before
  have hold (hsome : (fs.find? p).isSome) : False := by
    rw [hp.free] at hsome
    cases hsome
  by_cases hnil : names = []
  · subst hnil
    have hsame := way_congr (hkeeps.mono fun q hq => isSome_of_mem_way hroot hq)
    rw [Path.below, List.foldl_nil, hsame] at hway
    exact (hold (isSome_of_mem_way hroot hway)).elim
  · obtain ⟨here, first, k, hleads, hstart⟩ := exists_start_below hroot
    have hsome {q : Place} (hq : q ∈ fs.places linkLimit here first) : (fs.find? q).isSome :=
      hleads.isSome_of_mem_places (by rw [find?_of_stat hroot]; rfl) hq
    rw [way_eq ((start_congr hkeeps _ _).trans (hstart names hnil)),
      (hkeeps.leads hleads).mem_places_append,
      places_congr fun q hq => hkeeps.find? q (hsome hq)] at hway
    rcases hway with hbefore | hbelow
    · exact (hold (hsome hbefore)).elim
    · rcases mem_places_of_names hlinks hbelow with ⟨taken, hinit, rfl⟩ | hnot
      · exact ⟨R, node, taken, hroot, hinit, rfl⟩
      · exact absurd hp hnot

/-- An added node that is on the path to an entry of a folder is this entry, and the names lead
there from the root. -/
theorem place_of_way (h : Enlarged fs fs' root depth) (hlen : names.length < depth)
    (hstat : fs.stat (root.below names) = .ok (some q, node)) (hp : IsNew fs fs' p)
    (hway : p ∈ fs'.way (root.below (names ++ [n]))) :
    p = n :: q ∧ ∃ R node₀, fs.stat root = .ok (some R, node₀) ∧ q = names.reverse ++ R := by
  obtain ⟨R, node₀, taken, hroot, hinit, rfl⟩ :=
    h.direct p hp (names ++ [n]) (by simp; omega) hway
  obtain ⟨k, k', q', hq', hleads⟩ := exists_leads_below hroot hstat
  obtain rfl := Option.some.inj hq'
  have hlink : ∀ t, t ≠ [] → t <+: taken → ∀ target,
      fs.find? (t.reverse ++ R) ≠ some (.link target) := by
    intro t _ ht target
    by_cases hne : t = taken
    · subst hne
      rw [hp.free]
      simp
    · exact h.keeps.not_link (hp.isFolder_before h.tree' ht hne) target
  rcases List.prefix_concat_iff.1 hinit with rfl | hshort
  · have hq := hleads.eq_of_names fun t ht hpre => hlink t ht (hpre.trans (List.prefix_append _ _))
    refine ⟨?_, R, node₀, hroot, hq⟩
    rw [hq, List.reverse_append, List.reverse_singleton, List.append_assoc,
      List.singleton_append]
  · -- the names before the last would lead through the added node
    obtain ⟨rest, rfl⟩ := hshort
    rw [List.map_append] at hleads
    obtain ⟨j, q₁, htaken, hrest⟩ := hleads.split
    have hsome := hrest.isSome_start (by rw [find?_of_stat hstat]; rfl)
    rw [htaken.eq_of_names hlink, hp.free] at hsome
    cases hsome

/-- The path to an entry that was there before leads where it led. -/
theorem stat_eq (h : Enlarged fs fs' root depth) (hlen : names.length < depth)
    (hstat : fs.stat (root.below names) = .ok (some q, node)) (hn : ¬ IsNew fs fs' (n :: q)) :
    fs'.stat (root.below (names ++ [n])) = fs.stat (root.below (names ++ [n])) := by
  refine h.keeps.stat_eq_of_way fun p hp hnew => hn ?_
  obtain ⟨rfl, -⟩ := h.place_of_way hlen hstat hnew (h.keeps.way_subset hp)
  exact hnew

/-- An entry of a folder was there before and is what it was, or it was added and the names lead to
it from the root. -/
theorem old_or_new (h : Enlarged fs fs' root depth) (hlen : names.length < depth)
    (hstat : fs.stat (root.below names) = .ok (spot, node)) (hn : n ∈ fs'.namesIn spot) :
    (n ∈ fs.namesIn spot ∧ ∀ trail, fs'.visit trail (root.below (names ++ [n])) spot n =
        fs.visit trail (root.below (names ++ [n])) spot n) ∧
      fs'.stat (root.below (names ++ [n])) = fs.stat (root.below (names ++ [n])) ∨
    ∃ R node₀, fs.stat root = .ok (some R, node₀) ∧ spot = some (names.reverse ++ R) ∧
      IsNew fs fs' (n :: (names.reverse ++ R)) := by
  cases spot with
  | none => cases hn
  | some q =>
    by_cases hnew : IsNew fs fs' (n :: q)
    · have hway := mem_way_join (h.keeps.stat_eq hstat) n
      rw [← Path.below_concat] at hway
      obtain ⟨-, R, node₀, hroot, rfl⟩ := h.place_of_way hlen hstat hnew hway
      exact .inr ⟨R, node₀, hroot, rfl, hnew⟩
    · have hfind : fs'.entry? (some q) n = fs.entry? (some q) n := h.keeps.find?_of_not_new hnew
      have hjoin := h.stat_eq hlen hstat hnew
      refine .inl ⟨⟨?_, fun trail => visit_congr hfind hjoin⟩, hjoin⟩
      rwa [mem_namesIn, ← hfind, ← mem_namesIn]

/-- The path to an entry that a folder had before leads where it led. -/
theorem stat_of_mem (h : Enlarged fs fs' root depth) (hlen : names.length < depth)
    (hstat : fs.stat (root.below names) = .ok (spot, node)) (hn : n ∈ fs.namesIn spot) :
    fs'.stat (root.below (names ++ [n])) = fs.stat (root.below (names ++ [n])) := by
  cases spot with
  | none => cases hn
  | some q =>
    refine h.stat_eq hlen hstat fun hnew => ?_
    have hsome : (fs.find? (n :: q)).isSome := mem_namesIn.1 hn
    rw [hnew.free] at hsome
    cases hsome

/-- A path that led nowhere leads to an added node, if the added ones on it are folders. -/
theorem new_of_stat (h : Enlarged fs fs' root depth) (hlen : names.length ≤ depth)
    (hfolder : ∀ R node₀ t, fs.stat root = .ok (some R, node₀) → t <+: names →
      IsNew fs fs' (t.reverse ++ R) → fs'.isFolder (t.reverse ++ R) = true)
    {e : IoFault} (hstat : fs.stat (root.below names) = .error e)
    (hstat' : fs'.stat (root.below names) = .ok (spot, node)) :
    ∃ R node₀, fs.stat root = .ok (some R, node₀) ∧ spot = some (names.reverse ++ R) ∧
      IsNew fs fs' (names.reverse ++ R) := by
  obtain ⟨p, hp, hnew⟩ : ∃ p ∈ fs.way (root.below names), IsNew fs fs' p := by
    by_contra hnone
    push Not at hnone
    rw [h.keeps.stat_eq_of_way hnone, hstat] at hstat'
    cases hstat'
  obtain ⟨R, node₀, taken, hroot, hinit, rfl⟩ :=
    h.direct p hnew names hlen (h.keeps.way_subset hp)
  obtain ⟨k, k', q, rfl, hleads⟩ := exists_leads_below (h.keeps.stat_eq hroot) hstat'
  have hfree {t : List EntryName} (ht : taken <+: t) : fs.find? (t.reverse ++ R) = none := by
    obtain ⟨rest, rfl⟩ := ht
    refine h.tree.find?_of_suffix hnew.free ?_
    rw [List.reverse_append, List.append_assoc]
    exact List.suffix_append _ _
  -- up to the added node there are folders, and behind it everything was added
  have hq : q = names.reverse ++ R := by
    refine hleads.eq_of_names fun t _ ht target hlink => ?_
    have hnotFolder : ¬ fs'.isFolder (t.reverse ++ R) = true := by
      rw [isFolder, hlink]
      simp [Node.isFolder]
    rcases List.prefix_or_prefix_of_prefix ht hinit with hbefore | hbehind
    · by_cases hne : t = taken
      · subst hne
        exact hnotFolder (hfolder R node₀ t hroot ht hnew)
      · exact hnotFolder (hnew.isFolder_before h.tree' hbefore hne)
    · exact hnotFolder (hfolder R node₀ t hroot ht ⟨hfree hbehind, by rw [hlink]; rfl⟩)
  subst hq
  exact ⟨R, node₀, hroot, rfl, hfree hinit, by rw [find?_of_stat hstat']; rfl⟩

end Enlarged

/-! ## Traversals -/

section Traversals

variable {P : Visit → Prop} {base : List EntryName} {reach : Nat} {trail : Trail}
  {arrange : List EntryName → List EntryName} {v : Visit} {level : Nat}

/-- Whether the visits of what was added below `base` have a property, and folders among it can be
read by a traversal that reaches `reach` names below the root. -/
structure AddsOnly (fs fs' : FileSystem) (root : Path) (base : List EntryName) (reach : Nat)
    (P : Visit → Prop) : Prop where
  visit : ∀ R node names n, fs.stat root = .ok (some R, node) → base <+: names →
    names.length < reach → IsNew fs fs' (n :: (names.reverse ++ R)) →
      ∀ trail, P (fs'.visit trail (root.below (names ++ [n])) (some (names.reverse ++ R)) n)
  folder : ∀ R node names n, fs.stat root = .ok (some R, node) → base <+: names →
    names.length + 1 < reach → IsNew fs fs' (n :: (names.reverse ++ R)) →
      ∀ trail e, fs'.visit trail (root.below (names ++ [n])) (some (names.reverse ++ R)) n = .ok e →
        e.kind = .folder → fs'.isFolder (n :: (names.reverse ++ R)) = true ∧
          ∃ found, fs'.readFolder (root.below (names ++ [n])) = .ok found

/-- What a traversal visits at an added entry and below it was added. -/
theorem AddsOnly.of_entry (h : AddsOnly fs fs' root base reach P) (htree : fs.IsTree)
    (harrange : ∀ names n, n ∈ arrange names ↔ n ∈ names)
    (hroot : fs.stat root = .ok (some R, node)) (hbase : base <+: names)
    (hlevel : names.length + (level + 1) = reach)
    (hstat : fs'.stat (root.below names) = .ok (some (names.reverse ++ R), node'))
    (hnew : IsNew fs fs' (n :: (names.reverse ++ R)))
    (hv : v = fs'.visit trail (root.below (names ++ [n])) (some (names.reverse ++ R)) n ∨
      ∃ e, fs'.visit trail (root.below (names ++ [n])) (some (names.reverse ++ R)) n = .ok e ∧
        e.kind = .folder ∧ v ∈ fs'.visitsBelow arrange level trail (root.below (names ++ [n]))) :
    P v := by
  induction level generalizing names n trail node' with
  | zero =>
    rcases hv with rfl | ⟨e, -, -, hbelow⟩
    · exact h.visit R node names n hroot hbase (by omega) hnew trail
    · cases hbelow
  | succ level ih =>
    rcases hv with rfl | ⟨e, hvisit, hkind, hbelow⟩
    · exact h.visit R node names n hroot hbase (by omega) hnew trail
    · -- the traversal goes on in a folder that was added, so all that is in it was added
      obtain ⟨hfolder, ⟨spot, listed⟩, hread⟩ :=
        h.folder R node names n hroot hbase (by omega) hnew trail e hvisit hkind
      obtain ⟨⟨m, hstat', -⟩, rfl⟩ := readFolder_eq_ok_iff.1 hread
      obtain ⟨mode, hmode⟩ := exists_mode hfolder
      obtain rfl : spot = some (n :: (names.reverse ++ R)) := by
        rw [Path.below_concat] at hstat'
        exact (Prod.mk.inj (eq_of_stat_join hstat hmode rfl hstat')).1
      have hplace : n :: (names.reverse ++ R) = (names ++ [n]).reverse ++ R := by
        rw [List.reverse_append, List.append_assoc]
        rfl
      obtain ⟨n', hn', hvisit'⟩ := (mem_visitsBelow harrange hread).1 hbelow
      have hnew' : IsNew fs fs' (n' :: n :: (names.reverse ++ R)) :=
        ⟨htree.find?_of_suffix hnew.free (List.suffix_cons _ _), mem_namesIn.1 hn'⟩
      rw [← Path.below_concat] at hvisit'
      rw [hplace] at hstat' hnew' hvisit'
      exact ih (hbase.trans (List.prefix_append _ _)) (by simp; omega) hstat' hnew' hvisit'

/-- What a traversal visits was visited before, or it was added. -/
theorem Enlarged.visitsBelow_or (h : Enlarged fs fs' root depth)
    (hadds : AddsOnly fs fs' root base reach P)
    (harrange : ∀ names n, n ∈ arrange names ↔ n ∈ names) (hreach : reach ≤ depth)
    (hbase : base <+: names) (hlevel : names.length + level = reach)
    (hstat : fs'.stat (root.below names) = fs.stat (root.below names))
    (hv : v ∈ fs'.visitsBelow arrange level trail (root.below names)) :
    v ∈ fs.visitsBelow arrange level trail (root.below names) ∨ P v := by
  induction level generalizing names trail with
  | zero => exact .inl hv
  | succ level ih =>
    cases hread : fs.readFolder (root.below names) with
    | error e =>
      rw [visitsBelow_of_error (readFolder_error_of_stat hstat hread)] at hv
      rw [visitsBelow_of_error hread]
      exact .inl hv
    | ok found =>
      obtain ⟨here, listed⟩ := found
      obtain ⟨⟨m, hfolder, -⟩, rfl⟩ := readFolder_eq_ok_iff.1 hread
      obtain ⟨n, hn, hvisit⟩ := (mem_visitsBelow harrange (h.keeps.readFolder_eq hread)).1 hv
      rw [← Path.below_concat] at hvisit
      rcases h.old_or_new (by omega) hfolder hn with ⟨⟨hmem, hsame⟩, hjoin⟩ |
        ⟨R, node, hroot, rfl, hnew⟩
      · rw [hsame] at hvisit
        rcases hvisit with rfl | ⟨e, hvisit, hkind, hbelow⟩
        · rw [Path.below_concat]
          exact .inl ((mem_visitsBelow harrange hread).2 ⟨n, hmem, .inl rfl⟩)
        · refine (ih (hbase.trans (List.prefix_append _ _)) (by simp; omega) hjoin hbelow).imp_left
            fun hbefore => ?_
          rw [Path.below_concat] at hvisit hbefore
          exact (mem_visitsBelow harrange hread).2 ⟨n, hmem, .inr ⟨e, hvisit, hkind, hbefore⟩⟩
      · have hfolder' := h.keeps.stat_eq hfolder
        exact .inr (hadds.of_entry h.tree harrange hroot hbase hlevel hfolder' hnew hvisit)

end Traversals

end PhotoTally.FileSystem
