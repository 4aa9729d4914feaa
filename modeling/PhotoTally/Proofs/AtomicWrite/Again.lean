import PhotoTally.Proofs.AtomicWrite.Stages

/-!
# Writing again

The folder of the temporary file is the one that the target names (`temporary_folder`), so all that
a write looks at on its way to the target's place are folders and links, which the write leaves as
they are.  Two files that are written one after the other can therefore be written again, and then
nothing changes (`TwoWrites.again`), unless the first has come to stand on the way to its own folder
(`TwoWrites.isDirect_of_again`).
-/

namespace PhotoTally.AtomicWrite

variable {fs fs' : FileSystem} {target : Path} {contents : ByteArray} {place temp : Place}

/-! ## The way to the target's folder -/

/-- The places that a write looks at on its two ways to the target's folder, as it is spelt and from
the root. -/
def approach (fs : FileSystem) (target : Path) : List Place :=
  fs.way target.folder ++ (fs.absolute target.folder).toOption.elim [] fs.way

/-- The temporary file is in the folder that the target names, and the way there from the root goes
through folders and the places that are on the way as it is spelt. -/
theorem temporary_folder (htree : fs.IsTree) (htemp : temporary fs target = .ok temp)
    (hplace : targetPlace fs target = .ok place) :
    temp.tail = place.tail ∧
      ∀ q ∈ approach fs target, fs.isFolder q = true ∨ q ∈ fs.way target.folder := by
  obtain ⟨spelt, folder, node, k, hspelt, hstat, -, rfl, -, -⟩ := exists_of_temporary htemp
  obtain ⟨hfollow, hway⟩ :=
    FileSystem.follow_of_absolute htree hspelt (FileSystem.follow_of_stat hstat)
  obtain ⟨r, rfl⟩ := exists_route hplace
  rw [r.follow_folder] at hfollow
  obtain rfl := Option.some.inj (Except.ok.inj hfollow)
  refine ⟨rfl, fun q hq => ?_⟩
  rw [approach, hspelt] at hq
  rcases List.mem_append.1 hq with hq | hq
  · exact .inr hq
  · exact hway q hq

/-- A free place is found if one of the names that are tried is free and not the one to avoid. -/
theorem exists_freePlace? {folder : Place} {avoid : List UInt8} {fuel j k : Nat} (hjk : j ≤ k)
    (hk : k < j + fuel) (hfree : fs.find? (temporaryPlace folder k) = none)
    (hname : temporaryName k ≠ avoid) : ∃ temp, freePlace? fs folder avoid fuel j = some temp := by
  induction fuel generalizing j with
  | zero => omega
  | succ fuel ih =>
    unfold freePlace?
    split_ifs with hfound
    · exact ⟨_, rfl⟩
    · have hne : j ≠ k := by
        rintro rfl
        simp [hfree, hname] at hfound
      exact ih (by omega) (by omega)

/-- A target names the same place wherever the way to its folder is the same. -/
theorem targetPlace_congr (hway : fs.Agrees fs' (· ∈ fs.way target.folder))
    (h : targetPlace fs target = .ok place)
    (hfree : fs'.isFolder place = false) : targetPlace fs' target = .ok place := by
  obtain ⟨r, rfl⟩ := exists_route h
  have hshort := r.short
  have hname : Step.ofSegment (lastSegment target) = .down r.name := by
    rw [← r.last, Step.ofSegment_bytes]
  have hplaces : ∀ q ∈ fs.places linkLimit r.start r.steps, fs'.find? q = fs.find? q :=
    fun q hq => hway.find? q ((r.mem_way q).2 hq)
  have hfolder := hplaces _ (FileSystem.mem_places_of_walk r.leads.walk_eq)
  have hfollow : fs.follow .target target.isAbsolute
      ((significant target).dropLast.map .ofSegment) = .ok (some r.folder) :=
    FileSystem.follow_eq_ok_iff.2 ⟨_, _, r.begins_before, r.leads.walk_eq⟩
  have hfollow' : fs'.follow .target target.isAbsolute
      ((significant target).dropLast.map .ofSegment) = .ok (some r.folder) := by
    refine FileSystem.follow_eq_ok_iff.2 ⟨r.start, r.steps, ?_, ?_⟩
    · rw [FileSystem.start_congr hway, r.begins_before]
    · rw [FileSystem.walk_congr hplaces, r.leads.walk_eq]
  unfold targetPlace at h ⊢
  rw [if_neg r.zero, if_neg r.nonempty, if_neg (by omega)] at h ⊢
  simp only [hfollow, hname] at h
  simp only [hfollow', hname, FileSystem.isFolder, FileSystem.grants, hfolder]
  simp only [FileSystem.isFolder, FileSystem.grants] at h
  split_ifs at h ⊢ <;> simp_all [FileSystem.isFolder]

section Agrees

variable (happroach : fs.Agrees fs' (· ∈ approach fs target))

include happroach

/-- A temporary file can be made wherever the way to the target's folder is the same and one of the
names is free. -/
theorem exists_temporary_congr (h : temporary fs target = .ok temp) {k : Nat} (hk : k < attempts)
    (hfree : fs'.find? (temporaryPlace temp.tail k) = none)
    (hname : temporaryName k ≠ lastSegment target) : ∃ temp', temporary fs' target = .ok temp' := by
  obtain ⟨spelt, folder, node, j, hspelt, hstat, -, rfl, -, -⟩ := exists_of_temporary h
  have habsolute : fs'.absolute target.folder = .ok spelt := by
    rw [← hspelt]
    unfold FileSystem.absolute
    rw [happroach.workFolder, happroach.workRemoved]
  have hstat' : fs'.stat spelt = .ok (some folder, node) := by
    rw [← hstat]
    refine FileSystem.look_congr (happroach.mono fun q hq => ?_)
    rw [approach, hspelt]
    exact List.mem_append_right _ hq
  have hplace : ∃ temp', freePlace? fs' folder (lastSegment target) attempts 0 = some temp' :=
    exists_freePlace? (Nat.zero_le k) (by omega) hfree hname
  obtain ⟨temp', htemp'⟩ := hplace
  unfold temporary at h ⊢
  rw [hspelt] at h
  rw [habsolute]
  have hfound := mapError_eq_ok_iff.1 h
  split_ifs at hfound with hzero hlong
  simp only [placeIn, hstat] at hfound
  split_ifs at hfound with hfolder hgrants
  refine ⟨temp', mapError_eq_ok_iff.2 ?_⟩
  rw [if_neg hzero, if_neg hlong]
  simp only [placeIn, hstat', htemp', hfolder, hgrants]
  rfl

/-- A write succeeds again wherever the way to the target's folder is the same and a temporary file
can be made. -/
theorem write_of_agrees (hplace : targetPlace fs target = .ok place)
    (hfree : fs'.isFolder place = false) (htemp : ∃ temp, temporary fs' target = .ok temp)
    (contents : ByteArray) :
    (write fs' target contents noFaults).2.result = .ok () ∧
      (write fs' target contents noFaults).1 = fs'.put place (complete fs' target contents) := by
  have hway : fs.Agrees fs' (· ∈ fs.way target.folder) :=
    happroach.mono fun _ hq => List.mem_append_left _ hq
  have hplace' := targetPlace_congr hway hplace hfree
  have hok : (write fs' target contents noFaults).2.result = .ok () :=
    result_write_noFaults_eq_ok_iff.2 ⟨htemp, place, hplace'⟩
  obtain ⟨place', hfound, hwrite⟩ := write_of_ok hok
  obtain rfl := Except.ok.inj (hplace'.symm.trans hfound)
  exact ⟨hok, hwrite⟩

end Agrees

/-- What stands at the place of a direct target is what its path leads to. -/
theorem stat_of_isDirect {node : Node} (hplace : targetPlace fs target = .ok place)
    (hdirect : IsDirect fs target) (hfind : fs.find? place = some node)
    (hnode : node.isLink = false) : fs.stat target = .ok (some place, node) := by
  have hput := stat_put_of_isDirect hplace hnode hdirect
  obtain ⟨r, rfl⟩ := exists_route hplace
  rwa [FileSystem.put_self (List.cons_ne_nil _ _) hfind] at hput

/-! ## Another path after a write -/

/-- After a write each path that was legible still is, if it names a place at all. -/
theorem IsLegible.put {other : Path} {place' : Place} (h : IsLegible fs other)
    (htree : fs.IsTree) (hplace : targetPlace fs target = .ok place)
    (hother : targetPlace (fs.put place (complete fs target contents)) other = .ok place') :
    IsLegible (fs.put place (complete fs target contents)) other := by
  obtain ⟨r, rfl⟩ := exists_route hplace
  obtain ⟨r', rfl⟩ := exists_route hother
  have hbefore : fs.stat other = _ := r'.stat_eq rfl rfl
  have hafter : (fs.put (r.name :: r.folder) (complete fs target contents)).stat other = _ :=
    r'.stat_eq rfl rfl
  have hhere : r'.start ≠ r.name :: r.folder := by
    intro hhere
    have hstart := r'.leads.isFolder_start (FileSystem.isFolder_of_find? r'.isFolder)
    rw [hhere, FileSystem.isFolder_put_self r.free rfl] at hstart
    cases hstart
  have hlink : (complete fs target contents).isLink = false := rfl
  have hnode : (complete fs target contents).isFolder = false := rfl
  rcases FileSystem.walk_put_cases htree r.free hlink hnode linkLimit
    (r'.steps ++ [.down r'.name]) hhere with ⟨hwalk, hne⟩ | hwalk | ⟨hwalk, j, hlast⟩
  · -- the path does not come to the new file
    have hsame : (fs.put (r.name :: r.folder) (complete fs target contents)).stat other =
        fs.stat other := by
      rw [hafter, hbefore, hwalk]
      cases hend : fs.walk .target linkLimit r'.start (r'.steps ++ [.down r'.name]) with
      | error e => rfl
      | ok q =>
        have hq : q ≠ r.name :: r.folder := by
          rintro rfl
          exact hne hend
        simp only [FileSystem.find?_put_of_ne (List.cons_ne_nil _ _) hq]
    constructor
    · rw [hsame]
      exact h.links
    · rw [hsame]
      exact h.file
  · rw [hwalk] at hafter
    constructor
    · rw [hafter]
      simp
    · intro spot node hstat
      rw [hafter] at hstat
      cases hstat
  · have hself : fs.stat target = _ := r.stat_eq rfl rfl
    rw [r.leads.walk_append] at hself
    rw [hlast] at hbefore
    -- before, the two paths led to the same, unless links ran out on the target's
    have hagree : fs.stat target = .error (.os .tooManyLinks) ∨ fs.stat target = fs.stat other := by
      by_cases hlinks : fs.walk .target r.links r.folder [.down r.name] = .error .tooManyLinks
      · rw [hlinks] at hself
        exact .inl hself
      · rw [FileSystem.walk_links (fun hw => h.links (by rw [hbefore, hw])) hlinks] at hbefore
        exact .inr (hself.trans hbefore.symm)
    have hgrants : (modeFor fs target).grants .read = true := by
      have hplain : Mode.plainFile.grants .read = true := by decide
      rcases hagree with hstat | hstat
      · unfold modeFor
        rw [hstat]
        exact hplain
      · have := h.grants_modeFor
        unfold modeFor at this ⊢
        rwa [hstat]
    rw [hwalk] at hafter
    simp only [FileSystem.find?_put_self (List.cons_ne_nil _ _)] at hafter
    constructor
    · rw [hafter]
      simp
    · intro spot node hstat
      rw [hafter] at hstat
      cases hstat
      refine ⟨rfl, ?_⟩
      show (modeAfter fs target contents).grants .read = true
      rw [grants_modeAfter, hgrants]

section Put

variable {other : Path} {place' : Place} {node : Node} (hfree : fs.isFolder place = false)
  (hlink : node.isLink = false) (hnode : node.isFolder = false)
  (hother : targetPlace (fs.put place node) other = .ok place')

include hfree hlink hnode hother

/-- A file that is put anywhere is not on the way to the folder of a target that still names a
place. -/
theorem agrees_of_targetPlace_put : (fs.put place node).Agrees fs
    (· ∈ (fs.put place node).way other.folder) := by
  have hne := FileSystem.ne_nil_of_isFolder hfree
  have hnew : (fs.put place node).IsDeadEnd place :=
    FileSystem.isDeadEnd_of_find? (FileSystem.find?_put_self hne _) hlink hnode
  exact (FileSystem.agrees_put hne _ (not_mem_way_of_isDeadEnd hother hnew)).symm

/-- A target that names a place after a file was put anywhere has named it before. -/
theorem targetPlace_before : targetPlace fs other = .ok place' := by
  have hagrees := agrees_of_targetPlace_put hfree hlink hnode hother
  have hne := FileSystem.ne_nil_of_isFolder hfree
  refine targetPlace_congr hagrees hother ?_
  obtain ⟨r', rfl⟩ := exists_route hother
  by_cases hsame : r'.name :: r'.folder = place
  · rw [hsame]
    exact hfree
  · have hfree' := r'.free
    rwa [FileSystem.isFolder, FileSystem.find?_put_of_ne hne hsame] at hfree'

theorem isDirect_before : IsDirect (fs.put place node) other ↔ IsDirect fs other := by
  unfold IsDirect
  rw [hother, targetPlace_before hfree hlink hnode hother,
    FileSystem.way_congr (agrees_of_targetPlace_put hfree hlink hnode hother)]

end Put

/-- A target that names a place after another write has named it before. -/
theorem targetPlace_of_put {other : Path} {place' : Place}
    (hplace : targetPlace fs target = .ok place)
    (hother : targetPlace (fs.put place (complete fs target contents)) other = .ok place') :
    targetPlace fs other = .ok place' := by
  obtain ⟨r, rfl⟩ := exists_route hplace
  exact targetPlace_before r.free rfl rfl hother

/-! ## The same file -/

/-- A direct target is not on the way to its folder, nor is it from the root. -/
theorem IsDirect.not_mem_approach (h : IsDirect fs target) (htree : fs.IsTree)
    (htemp : temporary fs target = .ok temp) (hplace : targetPlace fs target = .ok place) :
    place ∉ approach fs target := by
  intro hmem
  rcases (temporary_folder htree htemp hplace).2 place hmem with hfolder | hway
  · obtain ⟨r, rfl⟩ := exists_route hplace
    rw [r.free] at hfolder
    cases hfolder
  · exact h place hplace hway

/-- A direct target can be written to again, whatever file it has become. -/
theorem write_put (h : IsDirect fs target) (htree : fs.IsTree)
    (htemp : temporary fs target = .ok temp) (hplace : targetPlace fs target = .ok place)
    {node : Node} (hnode : node.isFolder = false) (contents : ByteArray) :
    (write (fs.put place node) target contents noFaults).2.result = .ok () ∧
      (write (fs.put place node) target contents noFaults).1 =
        fs.put place (complete (fs.put place node) target contents) := by
  have hspare := (isSpare_of_temporary htemp).targetPlace_ne
  have happroach := h.not_mem_approach htree htemp hplace
  obtain ⟨r, rfl⟩ := exists_route hplace
  have hne : r.name :: r.folder ≠ [] := List.cons_ne_nil _ _
  have hagrees : fs.Agrees (fs.put (r.name :: r.folder) node) (· ∈ approach fs target) :=
    FileSystem.agrees_put hne node happroach
  obtain ⟨spelt, folder, found, k, -, -, hk, rfl, hfree, hname⟩ := exists_of_temporary htemp
  have hother : temporaryPlace folder k ≠ r.name :: r.folder := fun e => hspare (e ▸ hplace)
  have hfree' : (fs.put (r.name :: r.folder) node).find? (temporaryPlace folder k) = none := by
    rw [FileSystem.find?_put_of_ne hne hother, hfree]
  have hagain := write_of_agrees hagrees hplace (FileSystem.isFolder_put_self r.free hnode)
    (exists_temporary_congr hagrees htemp hk hfree' hname) contents
  rwa [FileSystem.put_put] at hagain

theorem mode_complete (fs : FileSystem) (target : Path) (contents : ByteArray) :
    (complete fs target contents).mode = modeAfter fs target contents := rfl

/-- A second write with the same contents takes no bit from a file. -/
theorem complete_again {spot : Spot}
    (h : fs'.stat target = .ok (spot, complete fs target contents)) :
    complete fs' target contents = complete fs target contents := by
  unfold complete
  rw [modeAfter_eq_of_stat h, mode_complete]
  unfold modeAfter
  split_ifs
  · rfl
  · rw [Mode.afterWrite_afterWrite]

/-! ## Two files -/

/-- Two files that are written one after the other, with the file systems after each write and the
places that the targets name. -/
structure TwoWrites (fs fs₁ fs₂ : FileSystem) (first second : Path) (one two : ByteArray)
    (p q : Place) : Prop where
  tree : fs.IsTree
  legible : IsLegible fs second
  temp₁ : ∃ temp, temporary fs first = .ok temp
  place₁ : targetPlace fs first = .ok p
  after₁ : fs₁ = fs.put p (complete fs first one)
  temp₂ : ∃ temp, temporary fs₁ second = .ok temp
  place₂ : targetPlace fs₁ second = .ok q
  after₂ : fs₂ = fs₁.put q (complete fs₁ second two)

theorem targetPlace_ne_nil (h : targetPlace fs target = .ok place) : place ≠ [] := by
  obtain ⟨r, rfl⟩ := exists_route h
  exact List.cons_ne_nil _ _

namespace TwoWrites

variable {fs₁ fs₂ : FileSystem} {first second : Path} {one two : ByteArray} {p q : Place}
  (h : TwoWrites fs fs₁ fs₂ first second one two p q)

include h

theorem tree₁ : fs₁.IsTree := by
  obtain ⟨r, hr⟩ := exists_route h.place₁
  rw [h.after₁, hr]
  exact h.tree.put (FileSystem.isFolder_of_find? r.isFolder) r.free _

theorem legible₁ : IsLegible fs₁ second := by
  have hplace := h.place₂
  rw [h.after₁] at hplace ⊢
  exact h.legible.put h.tree h.place₁ hplace

/-- The second target has named its place before the first was written. -/
theorem place₂_before : targetPlace fs second = .ok q := by
  have hplace := h.place₂
  rw [h.after₁] at hplace
  exact targetPlace_of_put h.place₁ hplace

theorem find?_first : fs₁.find? p = some (complete fs first one) := by
  rw [h.after₁, FileSystem.find?_put_self (targetPlace_ne_nil h.place₁)]

/-- Nothing changes but the two places. -/
theorem agrees {P : Place → Prop} (hp : ¬ P p) (hq : ¬ P q) : fs.Agrees fs₂ P := by
  have hagrees₁ : fs.Agrees fs₁ P := by
    rw [h.after₁]
    exact FileSystem.agrees_put (targetPlace_ne_nil h.place₁) _ hp
  have hagrees₂ : fs₁.Agrees fs₂ P := by
    rw [h.after₂]
    exact FileSystem.agrees_put (targetPlace_ne_nil h.place₂) _ hq
  exact hagrees₁.trans hagrees₂

/-- If the first target names a place again, then the way to it was direct: what has been written
bars every way through it. -/
theorem isDirect_of_again {place : Place} (hagain : targetPlace fs₂ first = .ok place) :
    IsDirect fs first := by
  have hdead {q' : Place} {node : Node} (hfind : fs₂.find? q' = some node)
      (hlink : node.isLink = false) (hnode : node.isFolder = false) :
      q' ∉ fs₂.way first.folder :=
    not_mem_way_of_isDeadEnd hagain (FileSystem.isDeadEnd_of_find? hfind hlink hnode)
  have hfind : fs₂.find? q = some (complete fs₁ second two) := by
    rw [h.after₂, FileSystem.find?_put_self (targetPlace_ne_nil h.place₂)]
  have hq : q ∉ fs₂.way first.folder := hdead hfind rfl rfl
  have hp : p ∉ fs₂.way first.folder := by
    by_cases hsame : p = q
    · rwa [hsame]
    · have hfirst : fs₂.find? p = some (complete fs first one) := by
        rw [h.after₂, FileSystem.find?_put_of_ne (targetPlace_ne_nil h.place₂) hsame,
          h.find?_first]
      exact hdead hfirst rfl rfl
  have hagrees : fs.Agrees fs₂ (· ∈ fs₂.way first.folder) := h.agrees hp hq
  intro place hplace
  obtain rfl := Except.ok.inj (h.place₁.symm.trans hplace)
  rwa [FileSystem.way_congr hagrees.symm]

variable (hdirect : IsDirect fs first)

include hdirect

/-- If both targets name one place, the file goes to and fro between them with the bits that it
has. -/
theorem again_of_eq (hsame : q = p) :
    (write fs₂ first one noFaults).2.result = .ok () ∧
      (write (write fs₂ first one noFaults).1 second two noFaults).2.result = .ok () ∧
      (write (write fs₂ first one noFaults).1 second two noFaults).1 = fs₂ := by
  subst hsame
  obtain ⟨temp₁, htemp₁⟩ := h.temp₁
  obtain ⟨temp₂, htemp₂⟩ := h.temp₂
  have hdirect₁ := h.legible₁.isDirect
  have hfs₂ : fs₂ = fs.put q (complete fs₁ second two) := by
    rw [h.after₂, h.after₁, FileSystem.put_put]
  obtain ⟨hok₁, hafter₁⟩ := write_put hdirect h.tree htemp₁ h.place₁
    (show (complete fs₁ second two).isFolder = false from rfl) one
  rw [← hfs₂] at hok₁ hafter₁
  have hfs₃ : (write fs₂ first one noFaults).1 = fs₁.put q (complete fs₂ first one) := by
    rw [hafter₁, h.after₁, FileSystem.put_put]
  obtain ⟨hok₂, hafter₂⟩ := write_put hdirect₁ h.tree₁ htemp₂ h.place₂
    (show (complete fs₂ first one).isFolder = false from rfl) two
  rw [← hfs₃] at hok₂ hafter₂
  have hstat₁ := stat_of_isDirect h.place₂ hdirect₁ h.find?_first rfl
  have hstat₂ : fs₂.stat first = .ok (some q, complete fs₁ second two) := by
    rw [hfs₂]
    exact stat_put_of_isDirect h.place₁ rfl hdirect
  have hstat₃ : (write fs₂ first one noFaults).1.stat second =
      .ok (some q, complete fs₂ first one) := by
    rw [hfs₃]
    exact stat_put_of_isDirect h.place₂ rfl hdirect₁
  -- after two writes the bits are those that any further writes leave
  have hmode : modeAfter (write fs₂ first one noFaults).1 second two =
      modeAfter fs₁ second two := by
    rw [modeAfter_eq_of_stat hstat₃, mode_complete, modeAfter_eq_of_stat hstat₂, mode_complete,
      modeAfter_eq_of_stat hstat₁, mode_complete]
    unfold modeAfter
    split_ifs <;> simp only [Mode.afterWrite_afterWrite]
  have hcomplete : complete (write fs₂ first one noFaults).1 second two =
      complete fs₁ second two := by
    unfold complete
    rw [hmode]
  refine ⟨hok₁, hok₂, ?_⟩
  rw [hafter₂, hcomplete, ← h.after₂]

/-- The second file is not on the way to the folder of the first. -/
theorem not_mem_approach (hne : q ≠ p) : q ∉ approach fs first := by
  intro hmem
  obtain ⟨temp₁, htemp₁⟩ := h.temp₁
  have hdead : fs₁.IsDeadEnd q := h.legible₁.isDeadEnd h.place₂
  have hpne := targetPlace_ne_nil h.place₁
  rcases (temporary_folder h.tree htemp₁ h.place₁).2 q hmem with hfolder | hin
  · have hfree := hdead.1
    rw [h.after₁, FileSystem.isFolder, FileSystem.find?_put_of_ne hpne hne] at hfree
    rw [FileSystem.isFolder, hfree] at hfolder
    cases hfolder
  · have hway : fs.Agrees fs₁ (· ∈ fs.way first.folder) := by
      rw [h.after₁]
      exact FileSystem.agrees_put hpne _ (hdirect p h.place₁)
    obtain ⟨r, -⟩ := exists_route h.place₁
    have hfollow := (FileSystem.follow_congr hway).trans r.follow_folder
    have hfind := hway.find? _ (FileSystem.mem_way_of_follow r.follow_folder)
    rw [← FileSystem.way_congr hway] at hin
    exact hdead.not_mem_way hfollow (FileSystem.isFolder_of_find? (hfind.trans r.isFolder)) hin

theorem agrees_approach (hne : q ≠ p) : fs.Agrees fs₂ (· ∈ approach fs first) := by
  obtain ⟨temp₁, htemp₁⟩ := h.temp₁
  exact h.agrees (hdirect.not_mem_approach h.tree htemp₁ h.place₁) (h.not_mem_approach hdirect hne)

/-- A temporary file for the first target can still be made: with the name that it had, or if the
second file has this name, with the name that the second file's had. -/
theorem exists_temporary (hne : q ≠ p) : ∃ temp, temporary fs₂ first = .ok temp := by
  obtain ⟨temp₁, htemp₁⟩ := h.temp₁
  obtain ⟨temp₂, htemp₂⟩ := h.temp₂
  have hspare₁ := (isSpare_of_temporary htemp₁).targetPlace_ne
  have hspare₂ := (isSpare_of_temporary htemp₂).targetPlace_ne
  have hfolder₁ := (temporary_folder h.tree htemp₁ h.place₁).1
  have hfolder₂ := (temporary_folder h.tree₁ htemp₂ h.place₂).1
  have hqne := targetPlace_ne_nil h.place₂
  obtain ⟨_, folder₁, _, k₁, -, -, hk₁, rfl, hfree₁, hname₁⟩ := exists_of_temporary htemp₁
  obtain ⟨_, folder₂, _, k₂, -, -, hk₂, rfl, hfree₂, -⟩ := exists_of_temporary htemp₂
  by_cases htaken : temporaryPlace folder₁ k₁ = q
  · have hsame : folder₂ = folder₁ := by
      show (temporaryPlace folder₂ k₂).tail = (temporaryPlace folder₁ k₁).tail
      rw [hfolder₂, htaken]
    rw [hsame] at hfree₂ hspare₂
    refine exists_temporary_congr (h.agrees_approach hdirect hne) htemp₁ hk₂ ?_ fun hlast => ?_
    · have hother : temporaryPlace folder₁ k₂ ≠ q := fun e => hspare₂ (e ▸ h.place₂)
      show fs₂.find? (temporaryPlace folder₁ k₂) = none
      rw [h.after₂, FileSystem.find?_put_of_ne hqne hother, hfree₂]
    · -- the first file would have the name that was found free after it was written
      have hp : temporaryPlace folder₁ k₂ = p := by
        obtain ⟨r, rfl⟩ := exists_route h.place₁
        have hbytes := hlast.trans r.last.symm
        obtain rfl : folder₁ = r.folder := hfolder₁
        unfold temporaryPlace
        congr 1
        cases hn : r.name
        simp_all
      rw [hp, h.find?_first] at hfree₂
      cases hfree₂
  · refine exists_temporary_congr (h.agrees_approach hdirect hne) htemp₁ hk₁ ?_ hname₁
    have hother : temporaryPlace folder₁ k₁ ≠ p := fun e => hspare₁ (e ▸ h.place₁)
    show fs₂.find? (temporaryPlace folder₁ k₁) = none
    rw [h.after₂, FileSystem.find?_put_of_ne hqne htaken, h.after₁,
      FileSystem.find?_put_of_ne (targetPlace_ne_nil h.place₁) hother, hfree₁]

/-- If the targets name two places, each write finds what it would write. -/
theorem again_of_ne (hne : q ≠ p) :
    (write fs₂ first one noFaults).2.result = .ok () ∧ (write fs₂ first one noFaults).1 = fs₂ ∧
      (write fs₂ second two noFaults).2.result = .ok () ∧
      (write fs₂ second two noFaults).1 = fs₂ := by
  obtain ⟨temp₂, htemp₂⟩ := h.temp₂
  have hdirect₁ := h.legible₁.isDirect
  have hfind : fs₂.find? p = some (complete fs first one) := by
    rw [h.after₂, FileSystem.find?_put_of_ne (targetPlace_ne_nil h.place₂) (Ne.symm hne),
      h.find?_first]
  have hfree : fs₂.isFolder p = false := by
    rw [FileSystem.isFolder, hfind]
    rfl
  have hway : fs.Agrees fs₂ (· ∈ fs.way first.folder) :=
    (h.agrees_approach hdirect hne).mono fun _ hq => List.mem_append_left _ hq
  have hplace : targetPlace fs₂ first = .ok p := targetPlace_congr hway h.place₁ hfree
  have hdirect₂ : IsDirect fs₂ first := by
    intro place hfound
    obtain rfl := Except.ok.inj (hplace.symm.trans hfound)
    rw [FileSystem.way_congr hway]
    exact hdirect p h.place₁
  have hfirst := write_of_agrees (h.agrees_approach hdirect hne) h.place₁ hfree
    (h.exists_temporary hdirect hne) one
  rw [complete_again (stat_of_isDirect hplace hdirect₂ hfind rfl),
    FileSystem.put_self (targetPlace_ne_nil h.place₁) hfind] at hfirst
  have hstat : fs₂.stat second = .ok (some q, complete fs₁ second two) := by
    rw [h.after₂]
    exact stat_put_of_isDirect h.place₂ rfl hdirect₁
  have hsecond := write_put hdirect₁ h.tree₁ htemp₂ h.place₂
    (show (complete fs₁ second two).isFolder = false from rfl) two
  rw [← h.after₂, complete_again hstat, ← h.after₂] at hsecond
  exact ⟨hfirst.1, hfirst.2, hsecond⟩

/-- Two files that were written can be written again, and then nothing changes. -/
theorem again :
    (write fs₂ first one noFaults).2.result = .ok () ∧
      (write (write fs₂ first one noFaults).1 second two noFaults).2.result = .ok () ∧
      (write (write fs₂ first one noFaults).1 second two noFaults).1 = fs₂ := by
  by_cases hsame : q = p
  · exact h.again_of_eq hdirect hsame
  · obtain ⟨hok₁, hafter₁, hok₂, hafter₂⟩ := h.again_of_ne hdirect hsame
    rw [hafter₁]
    exact ⟨hok₁, hok₂, hafter₂⟩

end TwoWrites

end PhotoTally.AtomicWrite
