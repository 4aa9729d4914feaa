import PhotoTally.Proofs.FileSystem.Looks

/-!
# What files hold does not count

The outline of a file system has the same nodes, but its files are empty.  A path is followed, a
folder read and a traversal made there as before (`look_outlined`, `readFolder_outlined`,
`traverse_outlined`), and they look at the same places (`looksIn_outlined`).
-/

namespace PhotoTally

/-- The node without what is written in it. -/
def Node.outline : Node → Node
  | .file mode _ => .file mode .empty
  | n => n

namespace Node

@[simp] theorem isFolder_outline (n : Node) : n.outline.isFolder = n.isFolder := by
  cases n <;> rfl

@[simp] theorem isLink_outline (n : Node) : n.outline.isLink = n.isLink := by
  cases n <;> rfl

@[simp] theorem mode_outline (n : Node) : n.outline.mode = n.mode := by
  cases n <;> rfl

@[simp] theorem kind_outline (n : Node) : n.outline.kind = n.kind := by
  cases n <;> rfl

end Node

namespace FileSystem

/-- The file system with nothing written in its files. -/
def outlined (fs : FileSystem) : FileSystem :=
  { fs with nodes := fs.nodes.map fun _ n => n.outline }

variable (fs : FileSystem) {path : Path}

theorem find?_outlined (p : Place) : fs.outlined.find? p = (fs.find? p).map Node.outline := by
  unfold find? outlined
  split_ifs
  · rfl
  · exact Std.ExtTreeMap.getElem?_map

/-- What is written to a file does not show in the outline. -/
theorem outlined_put_file {p : Place} {mode : Mode} {contents : ByteArray} (hp : p ≠ [])
    (hfile : fs.find? p = some (.file mode contents)) (written : ByteArray) :
    (fs.put p (.file mode written)).outlined = fs.outlined := by
  have hnode : fs.nodes[p]? = some (.file mode contents) := by simpa [find?, hp] using hfile
  have : (fs.nodes.insert p (.file mode written)).map (fun _ n => n.outline) =
      fs.nodes.map fun _ n => n.outline := by
    apply Std.ExtTreeMap.ext_getElem?
    intro q
    by_cases hq : p = q
    · subst hq
      simp [hnode, Node.outline]
    · simp [Std.ExtTreeMap.getElem?_insert, hq]
  simp [put, outlined, this]

/-! ## Paths -/

theorem walkPlain_outlined (manner : Manner)
    {onLink onLink' : Place → Path → List Step → Except OsError Place}
    (hlink : ∀ here target rest, onLink' here target rest = onLink here target rest)
    (here : Place) (steps : List Step) :
    fs.outlined.walkPlain manner onLink' here steps = fs.walkPlain manner onLink here steps := by
  induction steps generalizing here with
  | nil => rfl
  | cons step rest ih =>
    rw [walkPlain.eq_def, walkPlain.eq_def]
    simp only [find?_outlined]
    cases fs.find? here with
    | none => rfl
    | some node =>
      cases node with
      | folder mode =>
        cases step with
        | down n =>
          cases hnext : fs.find? (n :: here) with
          | none => simp [Node.outline, hnext]
          | some next => cases next <;> simp [Node.outline, hnext, ih, hlink]
        | _ => simp [Node.outline, ih]
      | _ => rfl

theorem walk_outlined (manner : Manner) (k : Nat) (here : Place) (steps : List Step) :
    fs.outlined.walk manner k here steps = fs.walk manner k here steps := by
  induction k generalizing here steps with
  | zero => exact fs.walkPlain_outlined manner (fun _ _ _ => rfl) here steps
  | succ k ih =>
    refine fs.walkPlain_outlined manner (fun here target rest => ?_) here steps
    rw [ih]

theorem start_outlined (fromRoot : Bool) (steps : List Step) :
    fs.outlined.start fromRoot steps = fs.start fromRoot steps := rfl

theorem resolve_outlined (manner : Manner) (path : Path) :
    fs.outlined.resolve manner path = fs.resolve manner path := by
  unfold resolve follow
  simp only [start_outlined, walk_outlined]

theorem nodeAt?_outlined (spot : Spot) :
    fs.outlined.nodeAt? spot = (fs.nodeAt? spot).map Node.outline := by
  cases spot with
  | none => rfl
  | some p => exact fs.find?_outlined p

/-- A path leads to the outline of what it led to. -/
theorem look_outlined (manner : Manner) (path : Path) :
    fs.outlined.look manner path =
      (fs.look manner path).map fun found => (found.1, found.2.outline) := by
  unfold look
  rw [resolve_outlined]
  cases fs.resolve manner path with
  | error e => rfl
  | ok spot =>
    simp only [nodeAt?_outlined]
    cases fs.nodeAt? spot <;> rfl

theorem stat_outlined (path : Path) :
    fs.outlined.stat path = (fs.stat path).map fun found => (found.1, found.2.outline) :=
  fs.look_outlined .target path

@[simp] theorem pathExists_outlined (path : Path) :
    fs.outlined.pathExists path = fs.pathExists path := by
  unfold pathExists
  rw [stat_outlined]
  cases fs.stat path <;> rfl

@[simp] theorem pathIsFolder_outlined (path : Path) :
    fs.outlined.pathIsFolder path = fs.pathIsFolder path := by
  unfold pathIsFolder
  rw [stat_outlined]
  cases fs.stat path with
  | error e => rfl
  | ok found => exact found.2.isFolder_outline

@[simp] theorem pathIsLink_outlined (path : Path) :
    fs.outlined.pathIsLink path = fs.pathIsLink path := by
  unfold pathIsLink lstat
  rw [look_outlined]
  cases fs.look .entry path with
  | error e => rfl
  | ok found => exact found.2.isLink_outline

@[simp] theorem canonical_outlined (path : Path) :
    fs.outlined.canonical path = fs.canonical path := by
  unfold canonical
  simp only [walk_outlined]
  rfl

/-! ## Folders -/

theorem namesIn_outlined (spot : Spot) : fs.outlined.namesIn spot = fs.namesIn spot := by
  cases spot with
  | none => rfl
  | some here =>
    refine eq_children (pairwise_children _ here) fun n => ?_
    show n ∈ fs.outlined.children here ↔ _
    rw [mem_children, find?_outlined, Option.isSome_map]

theorem entry?_outlined (spot : Spot) (n : EntryName) :
    fs.outlined.entry? spot n = (fs.entry? spot n).map Node.outline := by
  cases spot with
  | none => rfl
  | some here => exact fs.find?_outlined (n :: here)

@[simp] theorem checkLinked_outline (trail : Trail) (path : Path) (spot : Spot) (n : Node) :
    checkLinked trail path spot n.outline = checkLinked trail path spot n := by
  unfold checkLinked
  rw [Node.mode_outline]

/-- A folder has the names that it had. -/
theorem readFolder_outlined (path : Path) :
    fs.outlined.readFolder path = fs.readFolder path := by
  unfold readFolder
  rw [stat_outlined]
  cases fs.stat path with
  | error e => rfl
  | ok found => simp [Except.map, namesIn_outlined]

theorem visit_outlined (trail : Trail) (path : Path) (here : Spot) (n : EntryName) :
    fs.outlined.visit trail path here n = fs.visit trail path here n := by
  unfold visit
  rw [entry?_outlined, stat_outlined]
  cases fs.entry? here n with
  | none => rfl
  | some node =>
    cases node with
    | link target =>
      have hsame : (Node.link target).outline = .link target := rfl
      rw [Option.map_some, hsame]
      cases fs.stat path with
      | error e => rfl
      | ok found => simp [Except.map]
    | _ => rfl

/-! ## Traversals -/

theorem visitsBelow_outlined (arrange : List EntryName → List EntryName) (depth : Nat)
    (trail : Trail) (path : Path) :
    fs.outlined.visitsBelow arrange depth trail path =
      fs.visitsBelow arrange depth trail path := by
  induction depth generalizing trail path with
  | zero => rfl
  | succ depth ih =>
    rw [visitsBelow, visitsBelow]
    simp only [readFolder_outlined, visit_outlined, ih]

/-- A traversal finds what it found. -/
theorem traverse_outlined (arrange : List EntryName → List EntryName) (depth : Nat) (root : Path) :
    fs.outlined.traverse arrange depth root = fs.traverse arrange depth root := by
  unfold traverse
  rw [stat_outlined]
  cases fs.stat root with
  | error e => rfl
  | ok found => simp [Except.map, visitsBelow_outlined]

/-! ## Looks -/

theorem placesPlain_outlined {onLink onLink' : Place → Path → List Step → List Place}
    (hlink : ∀ here target rest, onLink' here target rest = onLink here target rest)
    (here : Place) (steps : List Step) :
    fs.outlined.placesPlain onLink' here steps = fs.placesPlain onLink here steps := by
  induction steps generalizing here with
  | nil => rfl
  | cons step rest ih =>
    rw [placesPlain.eq_def, placesPlain.eq_def]
    cases step with
    | down n =>
      simp only [find?_outlined]
      cases fs.find? (n :: here) with
      | none => rfl
      | some next => cases next <;> simp [Node.outline, ih, hlink]
    | _ => simp [ih]

theorem way_outlined (path : Path) : fs.outlined.way path = fs.way path := by
  have hplaces (k : Nat) (here : Place) (steps : List Step) :
      fs.outlined.places k here steps = fs.places k here steps := by
    induction k generalizing here steps with
    | zero => exact fs.placesPlain_outlined (fun _ _ _ => rfl) here steps
    | succ k ih => exact fs.placesPlain_outlined (fun _ _ _ => ih _ _) here steps
  unfold way
  simp only [start_outlined, hplaces]

/-- A traversal looks at the places that it looked at. -/
theorem looksIn_outlined (depth : Nat) (root : Path) :
    fs.outlined.looksIn depth root = fs.looksIn depth root := by
  have hbelow (depth : Nat) (path : Path) :
      fs.outlined.looksBelow depth path = fs.looksBelow depth path := by
    induction depth generalizing path with
    | zero => rfl
    | succ depth ih =>
      rw [looksBelow, looksBelow]
      simp only [looksInto, looksAt, way_outlined, readFolder_outlined, ih]
  simp only [looksIn, looksAt, way_outlined, hbelow]

end FileSystem

end PhotoTally
