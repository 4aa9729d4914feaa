import PhotoTally.CommandLine.Parser
import PhotoTally.Proofs.Text.Ascii

/-!
# Options in arguments

An option is spelt as one argument or, if it has a value, as two (`Item.Spelt`).  While options are
read the last one with a value is still to be taken up; `Holds` says which options have been read if
it is counted with the others.  Reading the arguments of one more option adds that option
(`readArguments_item`), so reading those of a list of options adds the list, and goes on with what
stands behind (`readArguments_items`).
-/

namespace PhotoTally.CommandLine

open Text

/-! ## Options -/

/-- The name of an option with a value, as it is spelt. -/
def Setting.name : Setting → String
  | source => "source-dir"
  | dest => "dest-dir"
  | ledger => "ledger"
  | output => "output"
  | varName => "var-name"
  | logLevel => "log-level"

/-- The name of an option without a value, as it is spelt. -/
def Switch.name : Switch → String
  | json => "json"
  | dry => "dry-run"
  | log => "log"
  | help => "help"
  | version => "version"

/-- An option that is given, with its value. -/
inductive Item where
  | setting (s : Setting) (value : String)
  | switch (s : Switch)
  deriving DecidableEq

namespace Item

/-- Which option it is. -/
def kind : Item → Setting ⊕ Switch
  | setting s _ => .inl s
  | switch s => .inr s

def setting? : Item → Option (Setting × Argument)
  | setting s value => some (s, bytes value)
  | switch _ => none

def switch? : Item → Option Switch
  | setting _ _ => none
  | switch s => some s

/-- The ways to spell an option: a value stands behind `=`, or in the next argument. -/
inductive Spelt : Item → List Argument → Prop
  | joined (s : Setting) (value : String) :
      Spelt (setting s value) [bytes ("--" ++ s.name ++ "=" ++ value)]
  | apart (s : Setting) (value : String) :
      Spelt (setting s value) [bytes ("--" ++ s.name), bytes value]
  | switch (s : Switch) : Spelt (switch s) [bytes ("--" ++ s.name)]

end Item

/-- Whether a text can be the value of an option in either spelling. -/
structure IsValue (s : Setting) (value : String) : Prop where
  ne_empty : value ≠ ""
  dashless : value.toList.head? ≠ some '-'
  level : s = .logLevel → (level? value).isSome

/-- Whether an option can be given in a scope. -/
def Scope.Takes (scope : Scope) : Item → Prop
  | .setting s value => (s.name, s) ∈ scope.settings ∧ IsValue s value
  | .switch s => (s.name, s) ∈ scope.switches ∧ s ≠ .help ∧ s ≠ .version

/-- What has been taken up when options have been read. -/
def Given.ofItems (items : List Item) : Given where
  settings := items.filterMap Item.setting?
  switches := items.filterMap Item.switch?

variable {scope : Scope} {p : Progress} {items : List Item} {item : Item} {s : Setting}
  {value : String}

/-! ## Taking up an option -/

theorem bytes_ne_nil (h : value ≠ "") : bytes value ≠ [] := fun hnil =>
  h (bytes_injective (hnil.trans rfl))

theorem check_of_isValue (h : IsValue s value) : s.check (bytes value) = .ok () := by
  have hne := bytes_ne_nil h.ne_empty
  cases s with
  | logLevel => simp [Setting.check, h.level rfl]
  | varName => simp [Setting.check]
  | _ => simp [Setting.check, hne]

/-- No value is taken up for an option that is not there, and else one that is there. -/
theorem value?_ofItems_cases (items : List Item) (s : Setting) :
    ((Given.ofItems items).value? s = none ∧ ∀ value, Item.setting s value ∉ items) ∨
      ∃ value, (Given.ofItems items).value? s = some (bytes value) ∧
        Item.setting s value ∈ items := by
  unfold Given.value? Given.ofItems
  cases hfound : (items.filterMap Item.setting?).find? (·.1 = s) with
  | none =>
    refine .inl ⟨rfl, fun value hmem => ?_⟩
    have hpair : (s, bytes value) ∈ items.filterMap Item.setting? :=
      List.mem_filterMap.2 ⟨_, hmem, rfl⟩
    exact List.find?_eq_none.1 hfound _ hpair (decide_eq_true rfl)
  | some found =>
    have hs : found.1 = s := by simpa using List.find?_some hfound
    obtain ⟨i, hi, heq⟩ := List.mem_filterMap.1 (List.mem_of_find?_eq_some hfound)
    cases i with
    | switch w => cases heq
    | setting t value =>
      obtain rfl := Option.some.inj heq
      obtain rfl : t = s := hs
      exact .inr ⟨value, rfl, hi⟩

theorem has_ofItems {w : Switch} :
    (Given.ofItems items).has w = true ↔ Item.switch w ∈ items := by
  unfold Given.has Given.ofItems
  rw [List.contains_iff_mem, List.mem_filterMap]
  constructor
  · rintro ⟨i, hi, heq⟩
    cases i with
    | setting s value => cases heq
    | switch u =>
      obtain rfl := Option.some.inj heq
      exact hi
  · intro h
    exact ⟨_, h, rfl⟩

theorem addSetting_ofItems (hnew : Sum.inl s ∉ items.map Item.kind) (hvalue : IsValue s value) :
    (Given.ofItems items).addSetting s (bytes value) =
      .ok (.ofItems (items ++ [.setting s value])) := by
  have hnone : (Given.ofItems items).value? s = none := by
    rcases value?_ofItems_cases items s with ⟨hnone, -⟩ | ⟨v, -, hmem⟩
    · exact hnone
    · exact absurd (List.mem_map_of_mem hmem) hnew
  unfold Given.addSetting
  rw [hnone, check_of_isValue hvalue]
  simp [Except.map, Given.ofItems, Item.setting?, Item.switch?]

theorem addSwitch_ofItems {w : Switch} (hnew : Sum.inr w ∉ items.map Item.kind)
    (hhelp : w ≠ .help) (hversion : w ≠ .version) :
    (Given.ofItems items).addSwitch w = .ok (.ofItems (items ++ [.switch w])) := by
  have hnot : (Given.ofItems items).has w = false := by
    rw [← Bool.not_eq_true, has_ofItems]
    exact fun hmem => hnew (List.mem_map_of_mem hmem)
  unfold Given.addSwitch
  rw [hnot]
  cases w <;> simp_all [Given.ofItems, Item.setting?, Item.switch?]

/-! ## Reading an option -/

/-- Whether the options that have been read are these, the last one included. -/
structure Holds (p : Progress) (items : List Item) : Prop where
  isWaiting : p.isWaiting = false
  settle : p.settle = .ok (.ofItems items)

theorem holds_start : Holds .start [] := ⟨rfl, rfl⟩

theorem holds_ofItems (items : List Item) : Holds ⟨.ofItems items, none⟩ items := ⟨rfl, rfl⟩

/-- What begins with a dash names no command. -/
theorem command?_dash (scope : Scope) (rest : Argument) :
    scope.command? (dash :: rest) = none := by
  unfold Scope.command?
  cases htext : ofBytes? (dash :: rest) with
  | none => rfl
  | some name =>
    have hbytes := bytes_of_ofBytes? htext
    have hne (command : String) (h : (bytes command).head? ≠ some dash) : command ≠ name := by
      rintro rfl
      rw [hbytes] at h
      exact h rfl
    have hrun := hne "run" (by decide)
    have hstatus := hne "status" (by decide)
    cases scope <;> simp [Scope.commands, hrun, hstatus]

theorem isHelp_dash (scope : Scope) (rest : Argument) : scope.isHelp (dash :: rest) = false := by
  have hne : ofBytes? (dash :: rest) ≠ some helpName := by
    intro htext
    have hhead : (bytes helpName).head? = some dash := by rw [bytes_of_ofBytes? htext]; rfl
    exact absurd hhead (by decide)
  simp [Scope.isHelp, hne]

/-- An argument of two dashes and more is read as an option. -/
theorem readArguments_long {spelling : Argument} (hne : spelling ≠ []) (scope : Scope)
    (p : Progress) (rest : List Argument) :
    readArguments scope p ((dash :: dash :: spelling) :: rest) =
      readLong scope p spelling >>= fun p => readArguments scope p rest := by
  have hcommand : scope.command? (45 :: 45 :: spelling) = none := command?_dash scope _
  have hhelp : scope.isHelp (45 :: 45 :: spelling) = false := isHelp_dash scope _
  show readArguments scope p ((45 :: 45 :: spelling) :: rest) = _
  rw [readArguments, hcommand, hhelp]
  · simp only [ite_self, Bool.and_false, Bool.false_eq_true, if_false]
    cases readLong scope p spelling <;> rfl
  · exact hne

/-- An argument without a dash before it is the value of an option that lacks one. -/
theorem readArguments_value (scope : Scope) (g : Given) (s : Setting) {a : Argument}
    (h : a.head? ≠ some dash) (rest : List Argument) :
    readArguments scope ⟨g, some (s, none)⟩ (a :: rest) =
      readArguments scope ⟨g, some (s, some a)⟩ rest := by
  rw [readArguments]
  · simp [Progress.isWaiting]
  · rintro rfl
    exact h rfl
  · rintro _ rfl
    exact h rfl
  · rintro _ _ rfl
    exact h rfl

theorem head?_bytes (h : value.toList.head? ≠ some '-') : (bytes value).head? ≠ some dash := by
  intro hdash
  rw [bytes_eq] at hdash
  cases hchars : value.toList with
  | nil =>
    rw [hchars] at hdash
    cases hdash
  | cons c cs =>
    rw [hchars, List.flatMap_cons, List.head?_append_of_ne_nil _ (by simp)] at hdash
    have hc : c = '-' :=
      (mem_utf8EncodeChar_iff (d := '-') (by decide)).1 (List.mem_of_mem_head? hdash)
    rw [hchars, hc] at h
    exact h rfl

theorem find?_settings (h : (s.name, s) ∈ scope.settings) :
    scope.settings.find? (·.1 = s.name) = some (s.name, s) := by
  revert h
  cases scope <;> cases s <;> decide

theorem find?_switches {w : Switch} (h : (w.name, w) ∈ scope.switches) :
    scope.settings.find? (·.1 = w.name) = none ∧
      scope.switches.find? (·.1 = w.name) = some (w.name, w) := by
  revert h
  cases scope <;> cases w <;> decide

theorem takeWhile_of_all {name : Argument} (h : name.all (· ≠ equals) = true) (rest : Argument) :
    (name ++ equals :: rest).takeWhile (· ≠ equals) = name ∧
      name.takeWhile (· ≠ equals) = name := by
  have hname : ∀ b ∈ name, decide (b ≠ equals) = true := fun b hb => List.all_eq_true.1 h b hb
  constructor
  · rw [List.takeWhile_append_of_pos hname]
    simp
  · exact List.takeWhile_eq_self_iff.2 hname

section Reading

variable (hp : Holds p items)

include hp

theorem readLong_joined (hname : (s.name, s) ∈ scope.settings)
    (hnew : Sum.inl s ∉ items.map Item.kind) (hvalue : IsValue s value) :
    readLong scope p (bytes s.name ++ equals :: bytes value) =
      .ok ⟨.ofItems (items ++ [.setting s value]), none⟩ := by
  have hall : (bytes s.name).all (· ≠ equals) = true := by cases s <;> decide
  have hvalueBytes : (bytes s.name ++ equals :: bytes value).drop ((bytes s.name).length + 1) =
      bytes value := by
    rw [← List.drop_drop, List.drop_left]
    rfl
  unfold readLong
  simp only [(takeWhile_of_all hall _).1, ofBytes?_bytes, find?_settings hname, hp.settle,
    List.length_append, List.length_cons, Nat.lt_add_right_iff_pos, Nat.zero_lt_succ, if_true,
    hvalueBytes]
  show ((Given.ofItems items).addSetting s (bytes value) >>= fun g => pure (Progress.mk g none)) = _
  rw [addSetting_ofItems hnew hvalue]
  rfl

theorem readLong_apart (hname : (s.name, s) ∈ scope.settings) :
    readLong scope p (bytes s.name) = .ok ⟨.ofItems items, some (s, none)⟩ := by
  have hall : (bytes s.name).all (· ≠ equals) = true := by cases s <;> decide
  unfold readLong
  simp only [(takeWhile_of_all hall []).2, ofBytes?_bytes, find?_settings hname, hp.settle,
    Nat.lt_irrefl, if_false]
  rfl

theorem readLong_switch {w : Switch} (htakes : scope.Takes (.switch w))
    (hnew : Sum.inr w ∉ items.map Item.kind) :
    readLong scope p (bytes w.name) = .ok ⟨.ofItems (items ++ [.switch w]), none⟩ := by
  obtain ⟨hname, hhelp, hversion⟩ := htakes
  have hall : (bytes w.name).all (· ≠ equals) = true := by cases w <;> decide
  obtain ⟨hsetting, hswitch⟩ := find?_switches hname
  unfold readLong
  simp only [(takeWhile_of_all hall []).2, ofBytes?_bytes, hsetting, hswitch, hp.settle,
    Nat.lt_irrefl, if_false, Option.isSome_none, Bool.false_eq_true]
  show ((Given.ofItems items).addSwitch w >>= fun g => pure (Progress.mk g none)) = _
  rw [addSwitch_ofItems hnew hhelp hversion]
  rfl

end Reading

/-- The arguments of one more option add it to those that have been read. -/
theorem readArguments_item {words : List Argument} (hp : Holds p items) (htakes : scope.Takes item)
    (hnew : item.kind ∉ items.map Item.kind) (hspelt : item.Spelt words) (rest : List Argument) :
    ∃ q, Holds q (items ++ [item]) ∧
      readArguments scope p (words ++ rest) = readArguments scope q rest := by
  cases hspelt with
  | joined s value =>
    obtain ⟨hname, hvalue⟩ := htakes
    refine ⟨_, holds_ofItems _, ?_⟩
    have hword : bytes ("--" ++ s.name ++ "=" ++ value) =
        dash :: dash :: (bytes s.name ++ equals :: bytes value) := by
      rw [bytes_append, bytes_append, bytes_append, List.append_assoc, List.append_assoc]
      rfl
    rw [hword, List.singleton_append, readArguments_long (by simp),
      readLong_joined hp hname hnew hvalue]
    rfl
  | apart s value =>
    obtain ⟨hname, hvalue⟩ := htakes
    refine ⟨⟨.ofItems items, some (s, some (bytes value))⟩,
      ⟨rfl, addSetting_ofItems hnew hvalue⟩, ?_⟩
    have hword : bytes ("--" ++ s.name) = dash :: dash :: bytes s.name := by
      rw [bytes_append]
      rfl
    rw [hword, List.cons_append, List.singleton_append,
      readArguments_long (bytes_ne_nil (by cases s <;> decide)), readLong_apart hp hname]
    exact readArguments_value scope _ s (head?_bytes hvalue.dashless) rest
  | switch w =>
    refine ⟨_, holds_ofItems _, ?_⟩
    have hword : bytes ("--" ++ w.name) = dash :: dash :: bytes w.name := by
      rw [bytes_append]
      rfl
    rw [hword, List.singleton_append,
      readArguments_long (bytes_ne_nil (by cases w <;> decide)), readLong_switch hp htakes hnew]
    rfl

/-- The arguments of some more options add these, in their order. -/
theorem readArguments_items {more : List Item} {words : List (List Argument)}
    (hp : Holds p items) (htakes : ∀ i ∈ more, scope.Takes i)
    (honce : ((items ++ more).map Item.kind).Nodup) (hspelt : List.Forall₂ Item.Spelt more words)
    (rest : List Argument) :
    ∃ q, Holds q (items ++ more) ∧
      readArguments scope p (words.flatten ++ rest) = readArguments scope q rest := by
  induction hspelt generalizing p items with
  | nil => exact ⟨p, by rwa [List.append_nil], rfl⟩
  | @cons item ws more words hitem _ ih =>
    rw [List.forall_mem_cons] at htakes
    have hnew : item.kind ∉ items.map Item.kind := by
      rw [List.map_append, List.nodup_append] at honce
      intro hmem
      exact honce.2.2 _ hmem _ (by simp) rfl
    obtain ⟨q, hq, hread⟩ := readArguments_item hp htakes.1 hnew hitem (words.flatten ++ rest)
    rw [List.append_cons] at honce ⊢
    obtain ⟨q', hq', hmore⟩ := ih hq htakes.2 honce
    exact ⟨q', hq', by rw [List.flatten_cons, List.append_assoc, hread, hmore]⟩

end PhotoTally.CommandLine
