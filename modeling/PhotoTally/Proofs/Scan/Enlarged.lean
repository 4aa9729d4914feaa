import PhotoTally.Proofs.FileSystem.Enlarged
import PhotoTally.Proofs.Scan.Found

/-!
# Scans of enlarged trees

A listing and a scan come out as before if no added entry that they visit ends them or counts for
them (`subfolders_of_enlarged`, `files_of_enlarged`).  A folder that was added itself can be
scanned, and nothing that counts is found in it (`files_of_added`).
-/

namespace PhotoTally

namespace FileSystem

variable {fs : FileSystem} {path : Path} {p : Place} {n : EntryName} {node : Node} {trail : Trail}

/-- Whether a node is a pipe, or a link whose path leads to nothing. -/
def IsIdle (fs : FileSystem) (path : Path) : Node → Prop
  | .pipe _ => True
  | .link _ => fs.stat path = .error (.os .notFound)
  | _ => False

theorem visit_of_find? (hn : fs.find? (n :: p) = some node) (hlink : node.isLink = false) :
    fs.visit trail path (some p) n = .ok ⟨path, n, node.kind⟩ := by
  unfold visit
  rw [show fs.entry? (some p) n = some node from hn]
  cases node <;> simp_all [Node.isLink]

theorem visit_of_link {target : Path} (hn : fs.find? (n :: p) = some (.link target))
    (hstat : fs.stat path = .error (.os .notFound)) :
    fs.visit trail path (some p) n = .error (.io path (.os .notFound)) := by
  unfold visit
  rw [show fs.entry? (some p) n = some (.link target) from hn]
  simp only [hstat]

/-- An idle entry is visited as something that is neither a folder nor a file, or as missing. -/
theorem IsIdle.visit (h : fs.IsIdle path node) (hn : fs.find? (n :: p) = some node)
    (trail : Trail) :
    fs.visit trail path (some p) n = .ok ⟨path, n, .other⟩ ∨
      fs.visit trail path (some p) n = .error (.io path (.os .notFound)) := by
  cases node with
  | pipe _ => exact .inl (visit_of_find? hn rfl)
  | link _ => exact .inr (visit_of_link hn h)
  | folder _ => exact h.elim
  | file _ _ => exact h.elim

end FileSystem

namespace Scan

open FileSystem

variable {fs fs' : FileSystem} {root folder : Path} {depth level : Nat} {names : List EntryName}
  {accept : String → Bool} {found : NameSet} {Q : String → Prop} {R p : Place} {node : Node}
  {n : EntryName} {trail : Trail}

/-! ## Listings -/

/-- Whether a listing passes over a visit. -/
def Unlisted (v : Visit) : Prop := refusal? v = none ∧ listedName? v = none

theorem unlisted_of_idle (h : fs.IsIdle folder node) (hn : fs.find? (n :: p) = some node) :
    Unlisted (fs.visit trail folder (some p) n) := by
  rcases h.visit hn trail with hvisit | hvisit
  · rw [hvisit]
    exact ⟨rfl, rfl⟩
  · rw [hvisit]
    exact ⟨rfl, rfl⟩

/-- Listings of a folder come out alike if its visits do. -/
theorem subfolders_of_visits (hlook : ∀ manner, fs'.look manner folder = fs.look manner folder)
    (hvisits : (foldersOf (fs'.visitsBelow id 1 [] folder)).result =
      (foldersOf (fs.visitsBelow id 1 [] folder)).result) :
    (subfolders fs' folder).result = (subfolders fs folder).result := by
  have hstat : fs'.stat folder = fs.stat folder := hlook .target
  have hlstat : fs'.lstat folder = fs.lstat folder := hlook .entry
  unfold subfolders FileSystem.traverse pathIsLink
  rw [hstat, hlstat]
  cases fs.stat folder with
  | error e => rfl
  | ok found =>
    obtain ⟨spot, n⟩ := found
    simp only
    split_ifs
    · rfl
    · cases checkLinked [] folder spot n with
      | error f => rfl
      | ok _ => exact hvisits
    · exact hvisits

/-- A listing comes out as before if it passes over the added entries. -/
theorem subfolders_of_enlarged (h : Enlarged fs fs' root depth) (hlen : names.length < depth)
    (hadds : AddsOnly fs fs' root names (names.length + 1) Unlisted) {listed : List String}
    (hlisted : (subfolders fs (root.below names)).result = .ok listed) :
    (subfolders fs' (root.below names)).result = .ok listed := by
  rw [← hlisted]
  obtain ⟨found, hstat⟩ := exists_stat_of_subfolders hlisted
  refine subfolders_of_visits (h.keeps.look_eq hstat) ?_
  cases hread : fs.readFolder (root.below names) with
  | error e =>
    have hread' := readFolder_error_of_stat ((h.keeps.stat_eq hstat).trans hstat.symm) hread
    rw [visitsBelow_of_error hread, visitsBelow_of_error hread']
  | ok entries =>
    obtain ⟨here, entries⟩ := entries
    obtain ⟨⟨m, hfolder, -⟩, rfl⟩ := readFolder_eq_ok_iff.1 hread
    have hrefusal : ∀ v ∈ visitsOf fs (root.below names) here (fs.namesIn here),
        refusal? v = none := by
      rcases visits_of_subfolders hlisted with ⟨⟨e, herror⟩, -⟩ | ⟨_, _, hentries, hnone, -⟩
      · rw [hread] at herror
        cases herror
      · rw [hread] at hentries
        cases hentries
        exact hnone
    rw [visitsBelow_one, visitsBelow_one, hread, h.keeps.readFolder_eq hread]
    have hvisit (n : EntryName) (hn : n ∈ fs'.namesIn here) :
        (fs.entry? here n).isSome ∧ fs'.visit [(root.below names, here)]
            ((root.below names).join ⟨n.bytes⟩) here n = fs.visit [(root.below names, here)]
              ((root.below names).join ⟨n.bytes⟩) here n ∨
          fs.entry? here n = none ∧ Unlisted
            (fs'.visit [(root.below names, here)] ((root.below names).join ⟨n.bytes⟩) here n) := by
      rw [← Path.below_concat]
      rcases h.old_or_new hlen hfolder hn with ⟨⟨hmem, hsame⟩, -⟩ | ⟨R, node, hroot, rfl, hnew⟩
      · exact .inl ⟨mem_namesIn.1 hmem, hsame _⟩
      · exact .inr ⟨hnew.free,
          hadds.visit R node names n hroot List.prefix_rfl (Nat.lt_succ_self _) hnew _⟩
    have hrefusal' : ∀ v ∈ visitsOf fs' (root.below names) here (fs'.namesIn here),
        refusal? v = none := by
      intro v hv
      obtain ⟨n, hn, rfl⟩ := List.mem_map.1 hv
      rcases hvisit n hn with ⟨hmem, hsame⟩ | ⟨-, hunlisted⟩
      · rw [hsame]
        exact hrefusal _ (List.mem_map_of_mem (mem_namesIn.2 hmem))
      · exact hunlisted.1
    show (foldersOf (visitsOf fs' _ here _)).result = (foldersOf (visitsOf fs _ here _)).result
    rw [result_foldersOf_of_forall hrefusal, result_foldersOf_of_forall hrefusal',
      Except.ok.injEq, visitsOf, visitsOf, List.filterMap_map, List.filterMap_map,
      ← h.keeps.filter_namesIn here, List.filterMap_filter]
    refine List.filterMap_congr fun n hn => ?_
    rcases hvisit n hn with ⟨hmem, hsame⟩ | ⟨hfree, hunlisted⟩
    · simp [hmem, hsame]
    · simp [hfree, hunlisted.2]

/-! ## Files -/

/-- Whether a visit neither ends a scan nor adds one of the names that count. -/
def Uncounted (accept : String → Bool) (counts : String → Prop) (v : Visit) : Prop :=
  refusal? v = none ∧ ∀ x, foundName? accept v = some x → ¬ counts x

theorem uncounted_of_idle (h : fs.IsIdle folder node) (hn : fs.find? (n :: p) = some node)
    (accept : String → Bool) (counts : String → Prop) :
    Uncounted accept counts (fs.visit trail folder (some p) n) := by
  rcases h.visit hn trail with hvisit | hvisit
  · rw [hvisit]
    exact ⟨rfl, fun x hx => by simp [foundName?] at hx⟩
  · rw [hvisit]
    exact ⟨rfl, fun x hx => by cases hx⟩

theorem uncounted_of_folder {mode : Mode} (hn : fs.find? (n :: p) = some (.folder mode))
    (accept : String → Bool) (counts : String → Prop) :
    Uncounted accept counts (fs.visit trail folder (some p) n) := by
  rw [visit_of_find? hn rfl]
  exact ⟨rfl, fun x hx => by simp [foundName?, Node.kind] at hx⟩

/-- A scan finds what it found before, but for names that do not count, if no added entry ends
it. -/
theorem files_of_enlarged (h : Enlarged fs fs' root depth)
    (hdepth : names.length + (level + 1) ≤ depth)
    (hadds : AddsOnly fs fs' root names (names.length + (level + 1)) (Uncounted accept Q))
    (hstat : fs'.stat (root.below names) = fs.stat (root.below names))
    (hfound : (files fs (level + 1) accept (root.below names)).result = .ok found) :
    ∃ found', (files fs' (level + 1) accept (root.below names)).result = .ok found' ∧
      ∀ x, Q x → (x ∈ found' ↔ x ∈ found) := by
  obtain ⟨⟨⟨here, listed⟩, hread⟩, hrefusal⟩ | ⟨e, herror⟩ := (files_eq_ok hfound).1
  · have hvisits : ∀ v ∈ fs'.visitsBelow EntryName.listed (level + 1) [] (root.below names),
        v ∈ fs.visitsBelow EntryName.listed (level + 1) [] (root.below names) ∨
          Uncounted accept Q v := fun v hv =>
      h.visitsBelow_or hadds (fun _ _ => EntryName.mem_listed) hdepth List.prefix_rfl rfl hstat hv
    obtain ⟨found', hfound'⟩ : ∃ found',
        (files fs' (level + 1) accept (root.below names)).result = .ok found' := by
      refine exists_files ⟨_, h.keeps.readFolder_eq hread⟩ fun v hv => ?_
      exact (hvisits v hv).elim (hrefusal v) And.left
    refine ⟨found', hfound', fun x hx => ⟨fun hmem => ?_, files_mono h.keeps hfound hfound' x⟩⟩
    obtain ⟨v, hv, hname⟩ := ((files_eq_ok hfound').2 x).1 hmem
    rcases hvisits v hv with hbefore | ⟨-, hcounts⟩
    · exact ((files_eq_ok hfound).2 x).2 ⟨v, hbefore, hname⟩
    · exact absurd hx (hcounts x hname)
  · rw [files_of_stat_error herror, Except.ok.injEq] at hfound
    subst hfound
    exact ⟨.empty, files_of_stat_error (hstat.trans herror), fun _ _ => Iff.rfl⟩

/-- The scan of a folder that was added succeeds, and finds no name that counts. -/
theorem files_of_added (h : Enlarged fs fs' root depth)
    (hadds : AddsOnly fs fs' root names (names.length + (level + 1)) (Uncounted accept Q))
    (hroot : fs.stat root = .ok (some R, node)) (hnew : IsNew fs fs' (names.reverse ++ R))
    {node' : Node} (hstat : fs'.stat (root.below names) = .ok (some (names.reverse ++ R), node'))
    (hread : fs'.CanRead (root.below names)) :
    ∃ found', (files fs' (level + 1) accept (root.below names)).result = .ok found' ∧
      ∀ x, Q x → x ∉ found' := by
  obtain ⟨⟨here, listed⟩, hlisted⟩ := id hread
  obtain ⟨⟨m, hfolder, -⟩, rfl⟩ := readFolder_eq_ok_iff.1 hlisted
  obtain rfl : here = some (names.reverse ++ R) := by
    rw [hstat] at hfolder
    exact (Prod.mk.inj (Except.ok.inj hfolder)).1.symm
  have hvisits : ∀ v ∈ fs'.visitsBelow EntryName.listed (level + 1) [] (root.below names),
      Uncounted accept Q v := by
    intro v hv
    have harrange (names : List EntryName) (n : EntryName) :
        n ∈ EntryName.listed names ↔ n ∈ names := EntryName.mem_listed
    obtain ⟨n, hn, hvisit⟩ := (mem_visitsBelow harrange hlisted).1 hv
    rw [← Path.below_concat] at hvisit
    exact hadds.of_entry h.tree harrange hroot List.prefix_rfl rfl hstat
      ⟨h.tree.find?_of_suffix hnew.free (List.suffix_cons _ _), mem_namesIn.1 hn⟩ hvisit
  obtain ⟨found', hfound'⟩ : ∃ found',
      (files fs' (level + 1) accept (root.below names)).result = .ok found' :=
    exists_files hread fun v hv => (hvisits v hv).1
  refine ⟨found', hfound', fun x hx hmem => ?_⟩
  obtain ⟨v, hv, hname⟩ := ((files_eq_ok hfound').2 x).1 hmem
  exact (hvisits v hv).2 x hname hx

end Scan

end PhotoTally
