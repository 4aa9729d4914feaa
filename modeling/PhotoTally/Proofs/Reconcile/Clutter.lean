import PhotoTally.Proofs.Reconcile.Accounting
import PhotoTally.Proofs.Reconcile.Sets
import PhotoTally.Proofs.Reconcile.TwoRuns
import PhotoTally.Proofs.Scan.Enlarged

/-!
# Clutter

What may be added to the folders of a run without a change to its outcome.  `SourceClutter` and
`DestClutter` list it, by the names that lead to it from the root; each kind is passed over by
another test of the scans.  A run with such additions returns the same ledger and the same report
(`run_cluttered`).
-/

namespace PhotoTally

namespace Reconcile

open FileSystem Scan

variable {fs fs' : FileSystem} {c : Config} {l l' : Ledger} {year album : String}
  {y a n : EntryName} {names before : List EntryName} {p : Place} {node : Node} {trail : Trail}

/-! ## What clutter is -/

/-- What may be added below the source root, as `n` behind the names `before`. -/
inductive SourceClutter (fs' : FileSystem) (root : Path) :
    List EntryName → EntryName → Node → Prop where
  /-- Pipes and dangling links. -/
  | idle {before : List EntryName} {n : EntryName} {node : Node} :
      fs'.IsIdle (root.below (before ++ [n])) node → SourceClutter fs' root before n node
  /-- Files beside the years and the albums. -/
  | stray {before : List EntryName} {n : EntryName} {mode : Mode} {contents : ByteArray} :
      before.length ≤ 1 → SourceClutter fs' root before n (.file mode contents)
  /-- Folders beside the years and the albums whose names are not text. -/
  | unnamed {before : List EntryName} {n : EntryName} {mode : Mode} :
      before.length ≤ 1 → n.text? = none → SourceClutter fs' root before n (.folder mode)
  /-- Files of an album that are not raw, or whose names are not text. -/
  | notRaw {y a n : EntryName} {mode : Mode} {contents : ByteArray} :
      (∀ name, n.text? = some name → Photo.isRaw name = false) →
        SourceClutter fs' root [y, a] n (.file mode contents)
  /-- Subfolders of an album. -/
  | subfolder {y a n : EntryName} {mode : Mode} : SourceClutter fs' root [y, a] n (.folder mode)
  /-- Whatever is in a subfolder of an album. -/
  | deep {y a s n : EntryName} {rest : List EntryName} {node : Node} :
      SourceClutter fs' root (y :: a :: s :: rest) n node
  /-- Whatever is in a folder whose name is not text. -/
  | unlisted {m n : EntryName} {before : List EntryName} {node : Node} :
      m ∈ before.take 2 → m.text? = none → SourceClutter fs' root before n node

/-- Whether a file of an album of pictures has the base name of a raw file that the album has
now. -/
def CountsNow (fs : FileSystem) (c : Config) (y a n : EntryName) : Prop :=
  ∃ year album raw base, y.text? = some year ∧ a.text? = some album ∧ n.text?.isSome ∧
    (Scan.raws fs (albumFolder c.source year album)).result = .ok raw ∧
    Photo.baseName? ⟨n.bytes⟩ = some base ∧ base ∈ raw

/-- Whether names lead to the folder of an album of the source. -/
def IsAlbum (fs : FileSystem) (c : Config) (y a : EntryName) : Prop :=
  ∃ year album, y.text? = some year ∧ a.text? = some album ∧ Visits fs c year album

/-- What may be added below the root of the pictures, as `n` behind the names `before`. -/
inductive DestClutter (fs fs' : FileSystem) (c : Config) :
    List EntryName → EntryName → Node → Prop where
  /-- Whatever is neither on the way to an album of the source nor in its folder. -/
  | elsewhere {before : List EntryName} {n : EntryName} {node : Node} :
      (∀ y a, IsAlbum fs c y a → ¬ before ++ [n] <+: [y, a] ∧ ¬ [y, a] <+: before ++ [n]) →
        DestClutter fs fs' c before n node
  /-- Folders of years. -/
  | newYear {y : EntryName} {mode : Mode} : DestClutter fs fs' c [] y (.folder mode)
  /-- Folders of albums that can be read. -/
  | newAlbum {y a : EntryName} {mode : Mode} :
      mode.grants .read = true → DestClutter fs fs' c [y] a (.folder mode)
  /-- Pipes and dangling links in an album. -/
  | idle {y a n : EntryName} {rest : List EntryName} {node : Node} :
      fs'.IsIdle (c.dest.below (y :: a :: rest ++ [n])) node →
        DestClutter fs fs' c (y :: a :: rest) n node
  /-- Files in an album that do not count, among them those whose names are not text. -/
  | file {y a n : EntryName} {rest : List EntryName} {mode : Mode} {contents : ByteArray} :
      ¬ CountsNow fs c y a n → DestClutter fs fs' c (y :: a :: rest) n (.file mode contents)
  /-- Subfolders of an album that can be read. -/
  | subfolder {y a n : EntryName} {mode : Mode} :
      fs'.CanRead (c.dest.below [y, a, n]) → DestClutter fs fs' c [y, a] n (.folder mode)
  /-- Folders in a subfolder of an album. -/
  | deepFolder {y a s n : EntryName} {mode : Mode} :
      DestClutter fs fs' c [y, a, s] n (.folder mode)
  /-- Whatever is in a folder in a subfolder of an album. -/
  | deep {y a s t n : EntryName} {rest : List EntryName} {node : Node} :
      DestClutter fs fs' c (y :: a :: s :: t :: rest) n node

/-- Whether only clutter was added, none of which is reached through a link. -/
structure Cluttered (fs fs' : FileSystem) (c : Config) : Prop where
  source : Enlarged fs fs' c.source 3
  dest : Enlarged fs fs' c.dest 4
  inSource : ∀ R node₀ before n node, fs.stat c.source = .ok (some R, node₀) →
    fs.find? (n :: (before.reverse ++ R)) = none →
    fs'.find? (n :: (before.reverse ++ R)) = some node → SourceClutter fs' c.source before n node
  inDest : ∀ R node₀ before n node, fs.stat c.dest = .ok (some R, node₀) →
    fs.find? (n :: (before.reverse ++ R)) = none →
    fs'.find? (n :: (before.reverse ++ R)) = some node → DestClutter fs fs' c before n node

/-! ## The source -/

/-- What is added beside the years and the albums is not listed. -/
theorem SourceClutter.unlisted_visit (h : SourceClutter fs' c.source before n node)
    (hlen : before.length ≤ 1) (htext : ∀ m ∈ before, m.text? ≠ none)
    (hn : fs'.find? (n :: p) = some node) :
    Unlisted (fs'.visit trail (c.source.below (before ++ [n])) (some p) n) := by
  cases h with
  | idle hidle => exact unlisted_of_idle hidle hn
  | stray _ =>
    rw [visit_of_find? hn rfl]
    exact ⟨rfl, by simp [listedName?, Node.kind]⟩
  | unnamed _ hnone =>
    rw [visit_of_find? hn rfl]
    exact ⟨rfl, by simp [listedName?, Node.kind, hnone]⟩
  | notRaw _ => simp at hlen
  | subfolder => simp at hlen
  | deep => simp at hlen
  | unlisted hmem hnone => exact absurd hnone (htext _ (List.mem_of_mem_take hmem))

/-- What is added to an album of the source has no raw file. -/
theorem SourceClutter.uncounted_visit (h : SourceClutter fs' c.source [y, a] n node)
    (hy : y.text? ≠ none) (ha : a.text? ≠ none) (hn : fs'.find? (n :: p) = some node) :
    Uncounted Photo.isRaw (fun _ => True)
      (fs'.visit trail (c.source.below ([y, a] ++ [n])) (some p) n) := by
  cases h with
  | idle hidle => exact uncounted_of_idle hidle hn _ _
  | stray hlen => simp at hlen
  | unnamed hlen _ => simp at hlen
  | notRaw hraw =>
    rw [visit_of_find? hn rfl]
    refine ⟨rfl, fun x hx => ?_⟩
    cases htext : n.text? with
    | none => simp [foundName?, htext] at hx
    | some name => simp [foundName?, htext, hraw name htext] at hx
  | subfolder => exact uncounted_of_folder hn _ _
  | unlisted hmem hnone =>
    rcases List.mem_pair.1 (List.mem_of_mem_take hmem) with rfl | rfl
    · exact absurd hnone hy
    · exact absurd hnone ha

theorem Cluttered.exists_source (h : Cluttered fs fs' c) {R : Place} {node₀ : Node}
    (hroot : fs.stat c.source = .ok (some R, node₀))
    (hnew : IsNew fs fs' (n :: (before.reverse ++ R))) :
    ∃ node, fs'.find? (n :: (before.reverse ++ R)) = some node ∧
      SourceClutter fs' c.source before n node := by
  obtain ⟨node, hnode⟩ := Option.isSome_iff_exists.1 hnew.taken
  exact ⟨node, hnode, h.inSource R node₀ before n node hroot hnew.free hnode⟩

theorem Cluttered.addsOnly_unlisted (h : Cluttered fs fs' c) (hlen : names.length ≤ 1)
    (htext : ∀ m ∈ names, m.text? ≠ none) :
    AddsOnly fs fs' c.source names (names.length + 1) Unlisted where
  visit R node₀ before n hroot hbase hbefore hnew trail := by
    obtain rfl := hbase.eq_of_length_le (by omega)
    obtain ⟨node, hnode, hclutter⟩ := h.exists_source hroot hnew
    exact hclutter.unlisted_visit hlen htext hnode
  folder R node₀ before n hroot hbase hbefore hnew := by
    have := hbase.length_le
    omega

theorem Cluttered.addsOnly_raws (h : Cluttered fs fs' c) (hy : y.text? ≠ none)
    (ha : a.text? ≠ none) :
    AddsOnly fs fs' c.source [y, a] 3 (Uncounted Photo.isRaw fun _ => True) where
  visit R node₀ before n hroot hbase hbefore hnew trail := by
    obtain rfl := hbase.eq_of_length_le (by simp; omega)
    obtain ⟨node, hnode, hclutter⟩ := h.exists_source hroot hnew
    exact hclutter.uncounted_visit hy ha hnode
  folder R node₀ before n hroot hbase hbefore hnew := by
    have := hbase.length_le
    simp only [List.length_cons, List.length_nil] at this
    omega

/-! ## The pictures -/

theorem Cluttered.exists_dest (h : Cluttered fs fs' c) {R : Place} {node₀ : Node}
    (hroot : fs.stat c.dest = .ok (some R, node₀))
    (hnew : IsNew fs fs' (n :: (before.reverse ++ R))) :
    ∃ node, fs'.find? (n :: (before.reverse ++ R)) = some node ∧
      DestClutter fs fs' c before n node := by
  obtain ⟨node, hnode⟩ := Option.isSome_iff_exists.1 hnew.taken
  exact ⟨node, hnode, h.inDest R node₀ before n node hroot hnew.free hnode⟩

/-- What is added to an album of pictures adds none of the names that count. -/
theorem DestClutter.uncounted_visit {rest : List EntryName} {raw : NameSet}
    (h : DestClutter fs fs' c (y :: a :: rest) n node) (hlen : rest.length ≤ 1)
    (halbum : IsAlbum fs c y a) (hy : y.text? = some year) (ha : a.text? = some album)
    (hraw : (Scan.raws fs (albumFolder c.source year album)).result = .ok raw)
    (hn : fs'.find? (n :: p) = some node) :
    Uncounted (fun _ => true) (· ∈ raw)
      (fs'.visit trail (c.dest.below (y :: a :: rest ++ [n])) (some p) n) := by
  cases h with
  | elsewhere hoff => exact absurd ⟨rest ++ [n], rfl⟩ (hoff y a halbum).2
  | idle hidle => exact uncounted_of_idle hidle hn _ _
  | file hcounts =>
    rw [visit_of_find? hn rfl]
    refine ⟨rfl, fun x hx hmem => hcounts ⟨year, album, raw, x, hy, ha, ?_, hraw, ?_, hmem⟩⟩
    · cases htext : n.text? with
      | none => simp [foundName?, htext] at hx
      | some name => rfl
    · rw [← Path.baseName?_join (c.dest.below (y :: a :: rest)), ← Path.below_concat]
      simp only [foundName?, Option.ite_none_right_eq_some] at hx
      exact hx.2
  | subfolder _ => exact uncounted_of_folder hn _ _
  | deepFolder => exact uncounted_of_folder hn _ _
  | deep =>
    simp only [List.length_cons] at hlen
    omega

/-- A folder that is added to an album of pictures can be read. -/
theorem DestClutter.canRead_of_visit {e : Entry} (h : DestClutter fs fs' c [y, a] n node)
    (halbum : IsAlbum fs c y a) (hn : fs'.find? (n :: p) = some node)
    (hvisit : fs'.visit trail (c.dest.below [y, a, n]) (some p) n = .ok e)
    (hkind : e.kind = .folder) :
    node.isFolder = true ∧ fs'.CanRead (c.dest.below [y, a, n]) := by
  cases h with
  | elsewhere hoff => exact absurd ⟨[n], rfl⟩ (hoff y a halbum).2
  | idle hidle =>
    rcases hidle.visit hn trail with hother | hmissing
    · rw [show c.dest.below [y, a, n] = c.dest.below ([y, a] ++ [n]) from rfl, hother] at hvisit
      cases hvisit
      cases hkind
    · rw [show c.dest.below [y, a, n] = c.dest.below ([y, a] ++ [n]) from rfl, hmissing] at hvisit
      cases hvisit
  | file _ =>
    rw [visit_of_find? hn rfl] at hvisit
    cases hvisit
    cases hkind
  | subfolder hread => exact ⟨rfl, hread⟩

/-- What is added on the way to an album of pictures are folders, and that of the album can be
read. -/
theorem DestClutter.isFolder_on_way (h : DestClutter fs fs' c before n node)
    (halbum : IsAlbum fs c y a) (hinit : before ++ [n] <+: [y, a]) :
    node.isFolder = true ∧ (before ≠ [] → node.mode.grants .read = true) := by
  have hlen := hinit.length_le
  cases h with
  | elsewhere hoff => exact absurd hinit (hoff y a halbum).1
  | newYear => exact ⟨rfl, fun hne => absurd rfl hne⟩
  | newAlbum hread => exact ⟨rfl, fun _ => hread⟩
  | idle _ => simp at hlen
  | file _ => simp at hlen
  | subfolder _ => simp at hlen
  | deepFolder => simp at hlen
  | deep => simp at hlen

theorem Cluttered.addsOnly_edits (h : Cluttered fs fs' c) (halbum : IsAlbum fs c y a)
    (hy : y.text? = some year) (ha : a.text? = some album) {raw : NameSet}
    (hraw : (Scan.raws fs (albumFolder c.source year album)).result = .ok raw) :
    AddsOnly fs fs' c.dest [y, a] 4 (Uncounted (fun _ => true) (· ∈ raw)) where
  visit R node₀ before n hroot hbase hbefore hnew trail := by
    obtain ⟨rest, rfl⟩ := hbase
    obtain ⟨node, hnode, hclutter⟩ := h.exists_dest hroot hnew
    rw [List.length_append] at hbefore
    have hrest : rest.length ≤ 1 := by
      simp only [List.length_cons, List.length_nil] at hbefore
      omega
    exact hclutter.uncounted_visit hrest halbum hy ha hraw hnode
  folder R node₀ before n hroot hbase hbefore hnew trail e hvisit hkind := by
    obtain rfl := hbase.eq_of_length_le (by simp; omega)
    obtain ⟨node, hnode, hclutter⟩ := h.exists_dest hroot hnew
    obtain ⟨hfolder, hread⟩ := hclutter.canRead_of_visit halbum hnode hvisit hkind
    refine ⟨?_, hread⟩
    rw [isFolder, hnode]
    exact hfolder

/-! ## Runs -/

theorem join_ofString {s : String} (h : n.text? = some s) (path : Path) :
    path.join (.ofString s) = path.join ⟨n.bytes⟩ := by
  rw [Path.ofString, Text.bytes_of_ofBytes? h]

theorem yearFolder_eq (h : y.text? = some year) : yearFolder c year = c.source.below [y] :=
  join_ofString h c.source

theorem albumFolder_eq (hy : y.text? = some year) (ha : a.text? = some album) (root : Path) :
    albumFolder root year album = root.below [y, a] := by
  rw [albumFolder, join_ofString hy, join_ofString ha]
  rfl

/-- A run lists the same years and albums after clutter was added, and sees their raw files. -/
theorem Cluttered.sameSource {r : Report} (h : Cluttered fs fs' c)
    (hrun : (run fs c l).result = .ok (l', r)) : SameSource fs c fs' c where
  years := by
    obtain ⟨names, hlist, -⟩ := run_eq_ok hrun
    replace hlist : (Scan.subfolders fs (c.source.below [])).result = .ok names := hlist
    show (Scan.subfolders fs' (c.source.below [])).result =
      (Scan.subfolders fs (c.source.below [])).result
    rw [hlist]
    exact subfolders_of_enlarged h.source (by simp) (h.addsOnly_unlisted (by simp) (by simp)) hlist
  albums year hyear := by
    obtain ⟨names, hlist, hall⟩ := run_isOk_iff.1 ⟨_, hrun⟩
    rw [listed_of_ok hlist] at hyear
    obtain ⟨found, hfound, -⟩ := hall year hyear
    obtain ⟨_, _, y, -, -, hy, -⟩ := (Scan.mem_subfolders hlist year).1 hyear
    rw [yearFolder_eq hy] at hfound ⊢
    rw [hfound]
    exact subfolders_of_enlarged h.source (by simp)
      (h.addsOnly_unlisted (by simp) (by simp [hy])) hfound
  raws year hyear album halbum := by
    obtain ⟨names, hlist, hall⟩ := run_isOk_iff.1 ⟨_, hrun⟩
    rw [listed_of_ok hlist] at hyear
    obtain ⟨found, hfound, hscans⟩ := hall year hyear
    rw [listed_of_ok hfound] at halbum
    obtain ⟨raw, hraw⟩ := (hscans album halbum).1
    obtain ⟨_, _, y, -, -, hy, -⟩ := (Scan.mem_subfolders hlist year).1 hyear
    obtain ⟨here, entries, a, hread, hmem, ha, -⟩ := (Scan.mem_subfolders hfound album).1 halbum
    rw [yearFolder_eq hy] at hread
    obtain ⟨⟨m, hstat, -⟩, rfl⟩ := readFolder_eq_ok_iff.1 hread
    -- the album was there before, so its path leads where it led
    have hsame : fs'.stat (c.source.below [y, a]) = fs.stat (c.source.below [y, a]) :=
      h.source.stat_of_mem (by simp) hstat hmem
    rw [hraw]
    rw [albumFolder_eq hy ha] at hraw ⊢
    obtain ⟨raw', hraw', hcount⟩ := files_of_enlarged h.source (by simp)
      (h.addsOnly_raws (by simp [hy]) (by simp [ha])) hsame hraw
    obtain rfl : raw' = raw := NameSet.ext_mem fun x => hcount x trivial
    exact hraw'

/-- Where the path to an album's pictures led nowhere and leads somewhere now, their folder was
added, and can be read. -/
theorem Cluttered.new_album (h : Cluttered fs fs' c) (halbum : IsAlbum fs c y a) {e : IoFault}
    {spot : Spot} (hstat : fs.stat (c.dest.below [y, a]) = .error e)
    (hstat' : fs'.stat (c.dest.below [y, a]) = .ok (spot, node)) :
    fs'.CanRead (c.dest.below [y, a]) ∧ ∃ R node₀, fs.stat c.dest = .ok (some R, node₀) ∧
      spot = some ([y, a].reverse ++ R) ∧ IsNew fs fs' ([y, a].reverse ++ R) := by
  have hfolder (R : Place) (node₀ : Node) (t : List EntryName)
      (hroot : fs.stat c.dest = .ok (some R, node₀)) (ht : t <+: [y, a])
      (hnew : IsNew fs fs' (t.reverse ++ R)) : fs'.isFolder (t.reverse ++ R) = true := by
    rcases t.eq_nil_or_concat' with rfl | ⟨before, n, rfl⟩
    · have hfree := hnew.free
      rw [List.reverse_nil, List.nil_append, find?_of_stat hroot] at hfree
      cases hfree
    · rw [List.reverse_concat, List.cons_append] at hnew ⊢
      obtain ⟨m, hm, hclutter⟩ := h.exists_dest hroot hnew
      rw [isFolder, hm]
      exact (hclutter.isFolder_on_way halbum ht).1
  obtain ⟨R, node₀, hroot, rfl, hnew⟩ := h.dest.new_of_stat (by simp) hfolder hstat hstat'
  have hnewAlbum : IsNew fs fs' (a :: ([y].reverse ++ R)) := hnew
  obtain ⟨m, hm, hclutter⟩ := h.exists_dest hroot hnewAlbum
  obtain rfl : node = m := Option.some.inj ((find?_of_stat hstat').symm.trans hm)
  obtain ⟨hnode, hgrants⟩ := hclutter.isFolder_on_way halbum List.prefix_rfl
  exact ⟨(canRead_iff_of_stat hstat').2 ⟨hnode, hgrants (List.cons_ne_nil y [])⟩,
    R, node₀, hroot, rfl, hnew⟩

/-- The scan of an album's pictures succeeds after clutter was added, and finds the same of its raw
files. -/
theorem Cluttered.exists_edits (h : Cluttered fs fs' c) (halbum : IsAlbum fs c y a)
    (hy : y.text? = some year) (ha : a.text? = some album) {raw edited : NameSet}
    (hraw : (Scan.raws fs (albumFolder c.source year album)).result = .ok raw)
    (hedit : (Scan.edits fs (albumFolder c.dest year album)).result = .ok edited) :
    ∃ edited', (Scan.edits fs' (albumFolder c.dest year album)).result = .ok edited' ∧
      ∀ x ∈ raw, x ∈ edited' ↔ x ∈ edited := by
  have hadds := h.addsOnly_edits halbum hy ha hraw
  rw [albumFolder_eq hy ha] at hedit ⊢
  cases hstat : fs.stat (c.dest.below [y, a]) with
  | ok found =>
    have hsame := (h.dest.keeps.stat_eq hstat).trans hstat.symm
    exact files_of_enlarged h.dest (by simp) hadds hsame hedit
  | error e =>
    have hempty : (Scan.edits fs (c.dest.below [y, a])).result = .ok .empty :=
      files_of_stat_error hstat
    obtain rfl : edited = .empty := Except.ok.inj (hedit.symm.trans hempty)
    cases hstat' : fs'.stat (c.dest.below [y, a]) with
    | error e' => exact ⟨.empty, files_of_stat_error hstat', fun _ _ => Iff.rfl⟩
    | ok found =>
      obtain ⟨spot, node⟩ := found
      obtain ⟨hread, R, node₀, hroot, rfl, hnew⟩ := h.new_album halbum hstat hstat'
      obtain ⟨edited', hedit', hnone⟩ : ∃ edited',
          (Scan.edits fs' (c.dest.below [y, a])).result = .ok edited' ∧ ∀ x ∈ raw, x ∉ edited' :=
        files_of_added h.dest hadds hroot hnew hstat' hread
      exact ⟨edited', hedit', fun x hx => by simp [hnone x hx]⟩

/-- A run that succeeds returns the same ledger and the same report after clutter was added. -/
theorem run_cluttered {r : Report} (h : Cluttered fs fs' c)
    (hrun : (run fs c l).result = .ok (l', r)) : (run fs' c l).result = .ok (l', r) := by
  obtain ⟨r', hrun', haligned⟩ := run_follows (R := Eq) (h.sameSource hrun)
    (fun year hyear name hname raw edited hraw hedit => by
      have hvisits : Visits fs c year name :=
        (isListed_iff hrun).1 (by simp [isListed, hyear, hname])
      obtain ⟨⟨_, _, y, -, -, hy, -⟩, _, _, a, -, -, ha, -⟩ := id hvisits
      obtain ⟨edited', hedit', hsame⟩ :=
        h.exists_edits ⟨year, name, hy, ha, hvisits⟩ hy ha hraw hedit
      exact ⟨edited', hedit', fun recorded => (AlbumCounts.count_congr hsame).symm⟩) hrun
  rwa [haligned.eq] at hrun'

/-! ## An album with clutter -/

/-- An album with one raw file. -/
def tidy : FileSystem :=
  .ofPaths ["/raws", "/raws/2023", "/raws/2023/Trip", "/edits", "/edits/2023"]
    ["/raws/2023/Trip/A.NEF"]

/-- A dangling link beside the raw file. -/
def strayLink : Place := (Path.ofString "/raws/2023/Trip/gone.NEF").place

/-- A folder for the album's pictures. -/
def newFolder : Place := (Path.ofString "/edits/2023/Trip").place

/-- A picture in it that has no raw file. -/
def strayFile : Place := (Path.ofString "/edits/2023/Trip/B.jpg").place

def messy : FileSystem :=
  ((tidy.put strayLink (.link (.ofString "/nowhere"))).put newFolder
    (.folder Mode.plainFolder)).put strayFile (.file Mode.plainFile .empty)

theorem added_messy (hfree : tidy.find? p = none) (hp : messy.find? p = some node) :
    p = strayLink ∧ node = .link (.ofString "/nowhere") ∨
      p = newFolder ∧ node = .folder Mode.plainFolder ∨
        p = strayFile ∧ node = .file Mode.plainFile .empty := by
  unfold messy at hp
  rw [find?_put _ (by decide +kernel), find?_put _ (by decide +kernel),
    find?_put _ (by decide +kernel), hfree] at hp
  split_ifs at hp with hfile hfolder hlink
  · exact .inr (.inr ⟨hfile, (Option.some.inj hp).symm⟩)
  · exact .inr (.inl ⟨hfolder, (Option.some.inj hp).symm⟩)
  · exact .inl ⟨hlink, (Option.some.inj hp).symm⟩

theorem keeps_messy : tidy.Keeps messy :=
  ((keeps_put (by decide +kernel) _).trans (keeps_put (by decide +kernel) _)).trans
    (keeps_put (by decide +kernel) _)

/-- The one link leads to nothing that was added. -/
theorem enlarged_messy {root : Path} {R : Place} (hroot : tidy.stat root = .ok (some R, node))
    (depth : Nat) : Enlarged tidy messy root depth := by
  refine .of_links keeps_messy (by decide +kernel) (by decide +kernel) hroot ?_ depth
  intro q target hq k rest p hp
  obtain rfl : target = .ofString "/nowhere" := by
    cases hold : tidy.find? q with
    | some m =>
      rw [keeps_messy.find?_eq hold] at hq
      exact absurd (hold.trans hq) (not_link_of_nodes (by decide +kernel) q target)
    | none =>
      rcases added_messy hold hq with ⟨-, h⟩ | ⟨-, h⟩ | ⟨-, h⟩
      · exact Node.link.inj h
      · cases h
      · cases h
  let nowhere : EntryName := ⟨Text.bytes "nowhere", by decide +kernel⟩
  have hsteps : (Path.ofString "/nowhere").steps = [.gap, .down nowhere] := by decide +kernel
  have hmissing : messy.find? [nowhere] = none := by decide +kernel
  rw [hsteps, linkStart, if_pos (by decide +kernel), List.cons_append, places_idle rfl,
    List.singleton_append, places_missing hmissing] at hp
  have hnone : ∀ q ∈ [[], [], [nowhere]], ¬ IsNew tidy messy q := by decide +kernel
  exact hnone p hp

/-- Names lead to a place below a root in one way only. -/
theorem eq_of_place {m : EntryName} {R : Place} {t : List EntryName}
    (h : n :: (before.reverse ++ R) = m :: (t.reverse ++ R)) : n = m ∧ before = t := by
  simpa using h

/-- Nothing is below two roots at the top. -/
theorem getLast?_of_place {m : EntryName} (h : n :: (before.reverse ++ [m]) = p) :
    p.getLast? = some m := by
  rw [← h, ← List.cons_append, List.getLast?_concat]

theorem cluttered_messy : Cluttered tidy messy halfEditedRoots := by
  let raws : EntryName := ⟨Text.bytes "raws", by decide +kernel⟩
  let edits : EntryName := ⟨Text.bytes "edits", by decide +kernel⟩
  let y : EntryName := ⟨Text.bytes "2023", by decide +kernel⟩
  let a : EntryName := ⟨Text.bytes "Trip", by decide +kernel⟩
  let link : EntryName := ⟨Text.bytes "gone.NEF", by decide +kernel⟩
  let file : EntryName := ⟨Text.bytes "B.jpg", by decide +kernel⟩
  have hsource : tidy.stat halfEditedRoots.source =
      .ok (some [raws], .folder Mode.plainFolder) := by decide +kernel
  have hdest : tidy.stat halfEditedRoots.dest =
      .ok (some [edits], .folder Mode.plainFolder) := by decide +kernel
  have hlink : strayLink = link :: ([y, a].reverse ++ [raws]) := by decide +kernel
  have hfolder : newFolder = a :: ([y].reverse ++ [edits]) := by decide +kernel
  have hfile : strayFile = file :: ([y, a].reverse ++ [edits]) := by decide +kernel
  refine ⟨enlarged_messy hsource 3, enlarged_messy hdest 4, ?_, ?_⟩
  · intro R node₀ before n node hroot hfree hnode
    obtain ⟨hR, -⟩ := Prod.mk.inj (Except.ok.inj (hsource.symm.trans hroot))
    obtain rfl := Option.some.inj hR
    rcases added_messy hfree hnode with ⟨hp, rfl⟩ | ⟨hp, rfl⟩ | ⟨hp, rfl⟩
    · rw [hlink] at hp
      obtain ⟨rfl, rfl⟩ := eq_of_place hp
      refine .idle ?_
      show messy.stat _ = .error (.os .notFound)
      decide +kernel
    · exact absurd (getLast?_of_place hp) (by decide +kernel)
    · exact absurd (getLast?_of_place hp) (by decide +kernel)
  · intro R node₀ before n node hroot hfree hnode
    obtain ⟨hR, -⟩ := Prod.mk.inj (Except.ok.inj (hdest.symm.trans hroot))
    obtain rfl := Option.some.inj hR
    rcases added_messy hfree hnode with ⟨hp, rfl⟩ | ⟨hp, rfl⟩ | ⟨hp, rfl⟩
    · exact absurd (getLast?_of_place hp) (by decide +kernel)
    · rw [hfolder] at hp
      obtain ⟨rfl, rfl⟩ := eq_of_place hp
      exact .newAlbum rfl
    · rw [hfile] at hp
      obtain ⟨rfl, rfl⟩ := eq_of_place hp
      refine .file ?_
      rintro ⟨year, album, raw, base, hy, ha, -, hraw, hbase, hmem⟩
      obtain rfl : "2023" = year := by
        have hyear : y.text? = some "2023" := by decide +kernel
        exact Option.some.inj (hyear.symm.trans hy)
      obtain rfl : "Trip" = album := by
        have halbum : a.text? = some "Trip" := by decide +kernel
        exact Option.some.inj (halbum.symm.trans ha)
      have hnow : (Scan.raws tidy (albumFolder halfEditedRoots.source "2023" "Trip")).result =
          .ok (.ofList ["A"]) := by
        decide +kernel
      obtain rfl := Except.ok.inj (hnow.symm.trans hraw)
      have hother : Photo.baseName? ⟨Text.bytes "B.jpg"⟩ = some "B" := by decide +kernel
      obtain rfl := Option.some.inj (hother.symm.trans hbase)
      exact absurd hmem (by decide +kernel)

/-- What a run returns for the album. -/
def tidyCounts : Ledger × Report :=
  (.ofDocument [("2023", [("Trip", ["A"])])], ⟨[⟨"2023", [⟨"Trip", 1, 0, 0⟩]⟩]⟩)

theorem run_tidy : (run tidy halfEditedRoots .empty).result = .ok tidyCounts := by decide +kernel

/-- The link, the folder and the file change nothing. -/
theorem run_cluttered_messy :
    Cluttered tidy messy halfEditedRoots ∧
      (run tidy halfEditedRoots .empty).result = .ok tidyCounts ∧
      (run messy halfEditedRoots .empty).result = .ok tidyCounts :=
  ⟨cluttered_messy, run_tidy, run_cluttered cluttered_messy run_tidy⟩

/-- A link that dangles because its target would be in a file ends the run, and so does a folder for
pictures that may not be read. -/
theorem dangling_link_ends_run :
    let path := Path.ofString "/raws/2023/Trip/gone.NEF"
    let linked := tidy.put strayLink (.link (.ofString "A.NEF/x"))
    let closed := tidy.put newFolder (.folder 0)
    (run tidy halfEditedRoots .empty).result = .ok tidyCounts ∧
      tidy.find? strayLink = none ∧ linked.stat path = .error (.os .notFolder) ∧
      (run linked halfEditedRoots .empty).result =
        .error (.walk (.io path (.os .notFolder))) ∧
      tidy.find? newFolder = none ∧
      (run closed halfEditedRoots .empty).result =
        .error (.walk (.io (.ofString "/edits/2023/Trip") (.os .denied))) := by
  decide +kernel

end Reconcile

end PhotoTally
