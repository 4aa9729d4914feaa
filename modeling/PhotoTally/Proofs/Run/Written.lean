import PhotoTally.Proofs.Run.Again

/-!
# What a run has written

`Written` says what stands at the two files of a run after both were written (`written_of_execute`).
The ledger is what its path leads to, since the path led to a ledger or to nothing before.  The
report need not be: a path that goes through its own entry leads nowhere any more.
-/

namespace PhotoTally

/-- Of writes to two places either can be made first. -/
theorem FileSystem.put_comm (fs : FileSystem) {p q : Place} (h : p ≠ q) (m n : Node) :
    (fs.put p m).put q n = (fs.put q n).put p m := by
  have : (fs.nodes.insert p m).insert q n = (fs.nodes.insert q n).insert p m := by
    apply Std.ExtTreeMap.ext_getElem?
    intro place
    simp only [Std.ExtTreeMap.getElem?_insert, Std.LawfulEqCmp.compare_eq_iff_eq]
    by_cases hq : q = place
    · subst hq
      rw [if_pos rfl, if_neg h, if_pos rfl]
    · rw [if_neg hq, if_neg hq]
  unfold put
  rw [this]

namespace AtomicWrite

variable {fs : FileSystem} {first second : Path} {one two : ByteArray} {p q : Place} {node : Node}

section Second

variable (hlegible : IsLegible fs second) (hp : targetPlace fs first = .ok p)
  (hq : targetPlace (fs.put p (complete fs first one)) second = .ok q)

include hlegible hp hq

/-- The second file does not bar the way to itself. -/
theorem isDirect_second : IsDirect (fs.put p (complete fs first one)) second := by
  obtain ⟨r, rfl⟩ := exists_route hp
  exact (isDirect_before r.free rfl rfl hq).2 hlegible.isDirect

/-- The second file is what its path leads to. -/
theorem stat_second (hnode : node.isLink = false) :
    ((fs.put p (complete fs first one)).put q node).stat second = .ok (some q, node) :=
  stat_put_of_isDirect hq hnode (isDirect_second hlegible hp hq)

/-- The first file, if the second has not replaced it, is what its path leads to, unless it bars the
way to itself. -/
theorem stat_first (hpq : p ≠ q) :
    ((fs.put p (complete fs first one)).put q node).stat first =
      if IsDirect fs first then .ok (some p, complete fs first one)
      else .error (.os .notFolder) := by
  have hbefore := targetPlace_of_put hp hq
  have hway := not_mem_way_of_isDeadEnd hp (hlegible.isDeadEnd hbefore)
  have hagrees : fs.Agrees (fs.put q node) (· ∈ fs.way first.folder) :=
    FileSystem.agrees_put (targetPlace_ne_nil hq) node hway
  have hfree : (fs.put q node).isFolder p = false := by
    obtain ⟨r, rfl⟩ := exists_route hp
    rw [FileSystem.isFolder, FileSystem.find?_put_of_ne (targetPlace_ne_nil hq) hpq]
    exact r.free
  have hplace : targetPlace (fs.put q node) first = .ok p := targetPlace_congr hagrees hp hfree
  have hdirect : IsDirect (fs.put q node) first ↔ IsDirect fs first := by
    unfold IsDirect
    rw [hplace, hp, FileSystem.way_congr hagrees]
  rw [FileSystem.put_comm fs hpq]
  split_ifs with h
  · exact stat_put_of_isDirect hplace rfl (hdirect.2 h)
  · exact stat_put_of_not_isDirect hplace rfl rfl fun h' => h (hdirect.1 h')

end Second

end AtomicWrite

namespace Run

variable {fs : FileSystem} {c : Config} {l : Ledger} {r : Report} {faults : Faults}

/-- What a run leaves at the places `p` of its report and `q` of its ledger. -/
structure Written (fs : FileSystem) (c : Config) (l : Ledger) (r : Report) (after : FileSystem)
    (p q : Place) : Prop where
  report_place : AtomicWrite.targetPlace fs c.output = .ok p
  ledger_place : AtomicWrite.targetPlace fs c.ledger = .ok q
  ledger : ∃ mode, after.stat c.ledger = .ok (some q, .file mode l.encode.toUTF8)
  report : p ≠ q → ∃ mode, after.find? p = some (.file mode (r.render c.format).toUTF8) ∧
    after.stat c.output =
      if AtomicWrite.IsDirect fs c.output then
        .ok (some p, .file mode (r.render c.format).toUTF8)
      else .error (.os .notFolder)
  elsewhere : ∀ place, place ≠ p → place ≠ q → after.find? place = fs.find? place

theorem written_of_execute (h : (execute fs c false faults).2.result = .ok r) :
    ∃ l p q, (survey fs c).result = .ok (l, r) ∧
      Written fs c l r (execute fs c false faults).1 p q := by
  obtain ⟨l, hsurvey, hreport, hsave⟩ := exists_parts h
  obtain ⟨l₀, hload, -⟩ := survey_eq_ok_iff.1 hsurvey
  obtain ⟨found, hspelt, -⟩ := Ledger.load_eq_ok_iff.1 hload
  rw [(execute_of_parts hsurvey hreport hsave).2]
  rw [Report.result_save] at hreport
  obtain ⟨p, hp, hfirst⟩ := AtomicWrite.write_of_ok hreport
  have hfirst : (r.save fs c.output c.format faults.report).1 =
      fs.put p (AtomicWrite.complete fs c.output (r.render c.format).toUTF8) := hfirst
  rw [hfirst] at hsave ⊢
  obtain ⟨q, hq, hsecond⟩ := AtomicWrite.write_of_ok hsave
  have hsecond : (l.save (fs.put p (AtomicWrite.complete fs c.output
      (r.render c.format).toUTF8)) c.ledger faults.ledger).1 = _ := hsecond
  rw [hsecond]
  have hpne := AtomicWrite.targetPlace_ne_nil hp
  have hqne := AtomicWrite.targetPlace_ne_nil hq
  refine ⟨l, p, q, hsurvey, hp, AtomicWrite.targetPlace_of_put hp hq, ?_, fun hpq => ?_,
    fun place hplace hplace' => ?_⟩
  · exact ⟨_, AtomicWrite.stat_second hspelt.isLegible hp hq rfl⟩
  · refine ⟨_, ?_, AtomicWrite.stat_first hspelt.isLegible hp hq hpq⟩
    rw [FileSystem.find?_put_of_ne hqne hpq, FileSystem.find?_put_self hpne]
    rfl
  · rw [FileSystem.find?_put_of_ne hqne hplace', FileSystem.find?_put_of_ne hpne hplace]

end Run

end PhotoTally
