import PhotoTally.FileSystem.Traversal
import PhotoTally.Proofs.FileSystem.Places

/-!
# What a traversal looks at

A traversal looks at the places on the paths that it follows, and at the entries of the folders that
it reads.  `fs.looksIn depth root` lists these looks, and a traversal finds the same in every file
system that agrees with `fs` on the places that they cover (`traverse_congr`).  Where there is a
link, the places it leads through are on the path, so they are covered as well.
-/

namespace PhotoTally

/-- What can be looked at: a place, or all entries of a folder. -/
inductive Look where
  | place (p : Place)
  | entries (folder : Place)
  deriving DecidableEq

namespace Look

/-- Whether a look tells what stands at a place. -/
def Covers : Look → Place → Prop
  | place p, q => q = p
  | entries folder, q => q ≠ [] ∧ q.tail = folder

instance (look : Look) (q : Place) : Decidable (look.Covers q) := by
  cases look <;> unfold Covers <;> infer_instance

/-- Whether one of the looks tells what stands at a place. -/
def Covered (looks : List Look) (q : Place) : Prop := ∃ look ∈ looks, look.Covers q

instance (looks : List Look) (q : Place) : Decidable (Covered looks q) :=
  inferInstanceAs (Decidable (∃ look ∈ looks, look.Covers q))

end Look

namespace FileSystem

open Look

variable {fs fs' : FileSystem} {path : Path}

/-! ## Folders -/

/-- The looks at the places on a path. -/
def looksAt (fs : FileSystem) (path : Path) : List Look := (fs.way path).map .place

/-- The looks of a reader of a folder: at the places on its path, and at its entries if it can be
read. -/
def looksInto (fs : FileSystem) (path : Path) : List Look :=
  fs.looksAt path ++
    match fs.readFolder path with
    | .ok (some here, _) => [.entries here]
    | _ => []

theorem Agrees.of_subset {looks looks' : List Look} (h : fs.Agrees fs' (Covered looks))
    (hsub : looks' ⊆ looks) : fs.Agrees fs' (Covered looks') :=
  h.mono fun _ ⟨look, hmem, hcovers⟩ => ⟨look, hsub hmem, hcovers⟩

theorem Agrees.on_way (h : fs.Agrees fs' (Covered (fs.looksAt path))) :
    fs.Agrees fs' (· ∈ fs.way path) :=
  h.mono fun q hq => ⟨.place q, List.mem_map_of_mem hq, rfl⟩

/-- Names that ascend are those of a folder if they are of its entries. -/
theorem eq_children {here : Place} {names : List EntryName}
    (hnames : names.Pairwise fun m n => compare m n = .lt)
    (h : ∀ n, n ∈ names ↔ (fs.find? (n :: here)).isSome) : names = fs.children here := by
  have hirrefl (n : EntryName) : compare n n ≠ .lt := by
    rw [Std.LawfulEqOrd.compare_eq_iff_eq.2 rfl]
    simp
  have : Std.Irrefl fun m n : EntryName => compare m n = .lt := ⟨hirrefl⟩
  have : Std.Antisymm fun m n : EntryName => compare m n = .lt :=
    ⟨fun m n hmn hnm => absurd (Std.TransCmp.lt_trans hmn hnm) (hirrefl m)⟩
  refine hnames.eq_of_mem_iff (pairwise_children fs here) fun n => ?_
  rw [mem_children, h]

/-- A folder has the same entries wherever there are the same nodes in it. -/
theorem children_congr {here : Place} (h : ∀ n, fs'.find? (n :: here) = fs.find? (n :: here)) :
    fs'.children here = fs.children here :=
  eq_children (pairwise_children fs' here) fun n => by rw [mem_children, h]

theorem readFolder_congr (h : fs.Agrees fs' (Covered (fs.looksInto path))) :
    fs'.readFolder path = fs.readFolder path := by
  have hstat : fs'.stat path = fs.stat path :=
    look_congr (h.of_subset (List.subset_append_left _ _)).on_way
  have hfind := h.find?
  unfold looksInto readFolder at hfind
  unfold readFolder
  rw [hstat]
  cases hfound : fs.stat path with
  | error e => rfl
  | ok found =>
    obtain ⟨spot, node⟩ := found
    simp only [hfound] at hfind ⊢
    split_ifs at hfind ⊢ with hfolder hgrants
    · rfl
    · rfl
    · cases spot with
      | none => rfl
      | some here =>
        have hentries : ∀ n, fs'.find? (n :: here) = fs.find? (n :: here) := fun n =>
          hfind _ ⟨.entries here, by simp, List.cons_ne_nil n here, rfl⟩
        simp only [namesIn, children_congr hentries]

theorem entry?_congr (h : fs.Agrees fs' (Covered (fs.looksInto path))) {here : Spot}
    {names : List EntryName} (hread : fs.readFolder path = .ok (here, names)) (name : EntryName) :
    fs'.entry? here name = fs.entry? here name := by
  cases here with
  | none => rfl
  | some place =>
    refine h.find? _ ⟨.entries place, ?_, List.cons_ne_nil name place, rfl⟩
    rw [looksInto, hread]
    exact List.mem_append_right _ (List.mem_singleton_self _)

/-! ## Traversals -/

/-- The looks below the folder at `path`, down to `depth` levels. -/
def looksBelow (fs : FileSystem) : Nat → Path → List Look
  | 0, _ => []
  | depth + 1, path =>
    fs.looksInto path ++
      match fs.readFolder path with
      | .error _ => []
      | .ok (_, names) => names.flatMap fun name =>
        let child := path.join ⟨name.bytes⟩
        fs.looksAt child ++ looksBelow fs depth child

/-- The looks of a traversal. -/
def looksIn (fs : FileSystem) (depth : Nat) (root : Path) : List Look :=
  fs.looksAt root ++ fs.looksBelow depth root

theorem visit_congr {trail : Trail} {here : Spot} {name : EntryName}
    (hentry : fs'.entry? here name = fs.entry? here name)
    (hstat : fs'.stat path = fs.stat path) :
    fs'.visit trail path here name = fs.visit trail path here name := by
  unfold visit
  rw [hentry, hstat]

variable {arrange : List EntryName → List EntryName} {depth : Nat}

theorem visitsBelow_congr (harrange : ∀ names, arrange names ⊆ names) (trail : Trail)
    (h : fs.Agrees fs' (Covered (fs.looksBelow depth path))) :
    fs'.visitsBelow arrange depth trail path = fs.visitsBelow arrange depth trail path := by
  induction depth generalizing trail path with
  | zero => rfl
  | succ depth ih =>
    have hinto : fs.Agrees fs' (Covered (fs.looksInto path)) :=
      h.of_subset (List.subset_append_left _ _)
    rw [visitsBelow, visitsBelow, readFolder_congr hinto]
    cases hfound : fs.readFolder path with
    | error e => rfl
    | ok found =>
      obtain ⟨here, names⟩ := found
      -- each entry is visited by its own path, and what is below it read by the same one
      refine List.flatMap_congr fun name hname => ?_
      have hchild : fs.Agrees fs' (Covered (fs.looksAt (path.join ⟨name.bytes⟩) ++
          fs.looksBelow depth (path.join ⟨name.bytes⟩))) := by
        refine h.of_subset fun look hlook => ?_
        rw [looksBelow, hfound]
        exact List.mem_append_right _ (List.mem_flatMap.2 ⟨name, harrange names hname, hlook⟩)
      have hstat : fs'.stat (path.join ⟨name.bytes⟩) = fs.stat (path.join ⟨name.bytes⟩) :=
        look_congr (hchild.of_subset (List.subset_append_left _ _)).on_way
      have hbelow := hchild.of_subset (List.subset_append_right _ _)
      simp only [visit_congr (entry?_congr hinto hfound name) hstat, ih _ hbelow]

/-- A traversal finds the same in file systems that agree on what it looks at. -/
theorem traverse_congr (harrange : ∀ names, arrange names ⊆ names)
    (h : fs.Agrees fs' (Covered (fs.looksIn depth path))) :
    fs'.traverse arrange depth path = fs.traverse arrange depth path := by
  have hway := (h.of_subset (List.subset_append_left _ _)).on_way
  have hbelow := h.of_subset (List.subset_append_right _ _)
  have hstat : fs'.stat path = fs.stat path := look_congr hway
  have hlstat : fs'.lstat path = fs.lstat path := look_congr hway
  unfold traverse pathIsLink
  rw [hstat, hlstat]
  simp only [visitsBelow_congr harrange [] hbelow]

end FileSystem

end PhotoTally
