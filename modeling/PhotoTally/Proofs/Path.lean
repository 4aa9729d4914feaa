import PhotoTally.Path
import Mathlib.Data.List.DropRight
import Mathlib.Tactic

/-!
# How a path is spelt

A path is put together from segments and taken apart into the same ones (`splitAll_joinAll`).  The
folder of a path is spelt by the segments before the last one, up to idle segments at the end, which
the spelling of a folder never has (`folder_spec`).
-/

namespace PhotoTally

namespace Text

variable {α : Type} [DecidableEq α] {sep : α}

theorem splitAll_of_not_mem {s : List α} (h : sep ∉ s) : splitAll sep s = [s] := by
  induction s with
  | nil => rfl
  | cons a s ih =>
    rw [List.mem_cons, not_or] at h
    rw [splitAll, if_neg (Ne.symm h.1), ih h.2]

theorem splitAll_append_cons {s : List α} (h : sep ∉ s) (rest : List α) :
    splitAll sep (s ++ sep :: rest) = s :: splitAll sep rest := by
  induction s with
  | nil => simp [splitAll]
  | cons a s ih =>
    rw [List.mem_cons, not_or] at h
    rw [List.cons_append, splitAll, if_neg (Ne.symm h.1), ih h.2]

theorem not_mem_of_mem_splitAll {l s : List α} (h : s ∈ splitAll sep l) : sep ∉ s := by
  induction l generalizing s with
  | nil => simp_all [splitAll]
  | cons a l ih =>
    unfold splitAll at h
    split_ifs at h with ha
    · rcases List.mem_cons.1 h with rfl | h
      · exact List.not_mem_nil
      · exact ih h
    · split at h
      · rename_i hnil
        exact absurd hnil (splitAll_ne_nil sep l)
      · rename_i first more hsplit
        rcases List.mem_cons.1 h with rfl | h
        · have := ih (s := first) (by simp [hsplit])
          simp_all [eq_comm]
        · exact ih (by simp [hsplit, h])

omit [DecidableEq α] in
theorem joinAll_cons_of_ne_nil {ss : List (List α)} (h : ss ≠ []) (s : List α) :
    joinAll sep (s :: ss) = s ++ sep :: joinAll sep ss := by
  cases ss with
  | nil => exact absurd rfl h
  | cons t ss => rfl

omit [DecidableEq α] in
theorem joinAll_concat {ss : List (List α)} (h : ss ≠ []) (s : List α) :
    joinAll sep (ss ++ [s]) = joinAll sep ss ++ sep :: s := by
  induction ss with
  | nil => exact absurd rfl h
  | cons t ss ih =>
    by_cases hss : ss = []
    · subst hss
      rfl
    · rw [List.cons_append, joinAll_cons_of_ne_nil (by simp), ih hss, joinAll_cons_of_ne_nil hss,
        List.append_assoc, List.cons_append]

omit [DecidableEq α] in
theorem exists_joinAll_concat (sep : α) (ss : List (List α)) (s : List α) :
    ∃ front, joinAll sep (ss ++ [s]) = front ++ s := by
  by_cases hss : ss = []
  · subst hss
    exact ⟨[], rfl⟩
  · exact ⟨joinAll sep ss ++ [sep], by rw [joinAll_concat hss, List.append_cons]⟩

omit [DecidableEq α] in
theorem mem_joinAll {x : α} {ss : List (List α)} (h : x ∈ joinAll sep ss) :
    x = sep ∨ ∃ s ∈ ss, x ∈ s := by
  induction ss with
  | nil => cases h
  | cons s ss ih =>
    by_cases hss : ss = []
    · subst hss
      exact .inr ⟨s, List.mem_singleton_self s, h⟩
    · rw [joinAll_cons_of_ne_nil hss, List.mem_append, List.mem_cons] at h
      rcases h with h | h | h
      · exact .inr ⟨s, List.mem_cons_self, h⟩
      · exact .inl h
      · exact (ih h).imp_right fun ⟨t, ht, hx⟩ => ⟨t, List.mem_cons_of_mem s ht, hx⟩

/-- Stretches that are put together are what the result is cut into. -/
theorem splitAll_joinAll {ss : List (List α)} (hne : ss ≠ []) (h : ∀ s ∈ ss, sep ∉ s) :
    splitAll sep (joinAll sep ss) = ss := by
  induction ss with
  | nil => exact absurd rfl hne
  | cons s ss ih =>
    rw [List.forall_mem_cons] at h
    by_cases hss : ss = []
    · subst hss
      exact splitAll_of_not_mem h.1
    · rw [joinAll_cons_of_ne_nil hss, splitAll_append_cons h.1, ih hss h.2]

theorem splitAll_joinAll_append {ss : List (List α)} (hne : ss ≠ []) (h : ∀ s ∈ ss, sep ∉ s)
    (l : List α) : splitAll sep (joinAll sep ss ++ sep :: l) = ss ++ splitAll sep l := by
  induction ss with
  | nil => exact absurd rfl hne
  | cons s ss ih =>
    rw [List.forall_mem_cons] at h
    by_cases hss : ss = []
    · subst hss
      exact splitAll_append_cons h.1 l
    · rw [joinAll_cons_of_ne_nil hss, List.append_assoc, List.cons_append,
        splitAll_append_cons h.1, ih hss h.2, List.cons_append]

end Text

namespace Path

/-! ## Idle segments -/

theorem dropIdle_eq (l : List (List UInt8)) : dropIdle l = l.rdropWhile isIdle := rfl

/-- What is dropped is idle. -/
theorem exists_dropIdle_append (l : List (List UInt8)) :
    ∃ idle, l = dropIdle l ++ idle ∧ ∀ s ∈ idle, isIdle s := by
  refine ⟨l.rtakeWhile isIdle, ?_, fun s hs => List.mem_rtakeWhile_imp hs⟩
  rw [dropIdle_eq, List.rdropWhile_append_rtakeWhile]

theorem dropIdle_concat {s : List UInt8} (h : isIdle s = false) (l : List (List UInt8)) :
    dropIdle (l ++ [s]) = l ++ [s] := by
  rw [dropIdle_eq]
  exact List.rdropWhile_concat_neg _ _ _ (by simp [h])

theorem dropIdle_dropIdle (l : List (List UInt8)) : dropIdle (dropIdle l) = dropIdle l :=
  List.rdropWhile_idempotent _ _

theorem dropIdle_cons (s : List UInt8) (l : List (List UInt8)) :
    dropIdle (s :: l) = if dropIdle l = [] then dropIdle [s] else s :: dropIdle l := by
  induction l using List.reverseRecOn with
  | nil => rfl
  | append_singleton l t ih =>
    rw [dropIdle_eq, dropIdle_eq] at *
    rw [← List.cons_append, List.rdropWhile_concat, List.rdropWhile_concat]
    by_cases ht : isIdle t
    · rw [if_pos ht, if_pos ht, ih]
    · rw [if_neg ht, if_neg ht, if_neg (by simp), List.cons_append]

/-- Without idle segments at its end only the spelling of no segments is empty. -/
theorem joinAll_dropIdle_eq_nil_iff (l : List (List UInt8)) :
    Text.joinAll slash (dropIdle l) = [] ↔ dropIdle l = [] := by
  constructor
  · intro h
    by_contra hne
    cases hl : dropIdle l with
    | nil => exact hne hl
    | cons s more =>
      cases more with
      | nil =>
        rw [hl] at h
        obtain rfl : s = [] := h
        have hagain := dropIdle_dropIdle l
        rw [hl] at hagain
        exact absurd hagain (by decide)
      | cons t more =>
        rw [hl, Text.joinAll_cons_of_ne_nil (List.cons_ne_nil t more)] at h
        simp at h
  · intro h
    rw [h]
    rfl

variable {p : Path} {before : List (List UInt8)} {name : List UInt8}

theorem not_mem_dropIdle {l : List (List UInt8)} (h : ∀ s ∈ l, slash ∉ s) :
    ∀ s ∈ dropIdle l, slash ∉ s :=
  fun s hs => h s ((List.rdropWhile_prefix isIdle (l := l)).subset hs)

/-- The segments of a spelling that is put together from segments without slashes. -/
theorem segments_joinAll {ss : List (List UInt8)} (hne : ss ≠ []) (h : ∀ s ∈ ss, slash ∉ s) :
    segments ⟨Text.joinAll slash ss⟩ = ss := Text.splitAll_joinAll hne h

theorem isAbsolute_iff : p.isAbsolute ↔ ∃ more, more ≠ [] ∧ p.segments = [] :: more := by
  unfold isAbsolute segments
  cases hb : p.bytes with
  | nil => simp [Text.splitAll]
  | cons b rest =>
    by_cases hs : b = slash
    · subst hs
      simp [Text.splitAll, Text.splitAll_ne_nil]
    · simp only [List.head?_cons, beq_iff_eq, Option.some.injEq, hs, false_iff, not_exists, not_and]
      intro more _
      unfold Text.splitAll
      rw [if_neg hs]
      split <;> simp

theorem folder_eq {rest : List (List UInt8)}
    (hbody : Text.splitAll slash (p.bytes.drop p.head.length) = rest ++ [name])
    (hname : isIdle name = false) :
    p.folder = if p.head ++ Text.joinAll slash (dropIdle rest) = [] then ⟨[dot]⟩
      else ⟨p.head ++ Text.joinAll slash (dropIdle rest)⟩ := by
  unfold folder
  simp [hbody, dropIdle_concat hname]

section Folder

variable (hp : p.segments = before ++ [name]) (hname : isIdle name = false)

include hp

theorem bytes_eq_joinAll : p.bytes = Text.joinAll slash (before ++ [name]) := by
  rw [← hp]
  exact (Text.joinAll_splitAll slash p.bytes).symm

theorem slash_not_mem_of_mem_before : ∀ s ∈ before ++ [name], slash ∉ s := by
  intro s hs
  rw [← hp] at hs
  exact Text.not_mem_of_mem_splitAll hs

include hname

theorem folder_of_isAbsolute (h : p.isAbsolute) :
    dropIdle p.folder.segments = dropIdle before ∧ p.folder.isAbsolute := by
  obtain ⟨more, hmore, hsegments⟩ := isAbsolute_iff.1 h
  obtain ⟨rest, rfl⟩ : ∃ rest, before = [] :: rest := by
    rw [hp] at hsegments
    cases before with
    | nil =>
      obtain ⟨rfl, rfl⟩ := List.cons.inj hsegments
      exact absurd rfl hmore
    | cons s rest => exact ⟨rest, by rw [(List.cons.inj hsegments).1]⟩
  have hslash := slash_not_mem_of_mem_before hp
  have hhead : p.head = [slash] := by simp [head, h]
  have hdrop : p.bytes.drop p.head.length = Text.joinAll slash (rest ++ [name]) := by
    rw [bytes_eq_joinAll hp, hhead, List.cons_append, Text.joinAll_cons_of_ne_nil (by simp)]
    rfl
  have hsplit : Text.splitAll slash (p.bytes.drop p.head.length) = rest ++ [name] := by
    rw [hdrop]
    exact Text.splitAll_joinAll (by simp) fun s hs => hslash s (by simp_all)
  have hbody := folder_eq hsplit hname
  rw [hhead, if_neg (by simp)] at hbody
  rw [hbody, dropIdle_cons]
  refine ⟨?_, by simp [isAbsolute]⟩
  split_ifs with hidle
  · rw [hidle]
    rfl
  · have hjoin : [slash] ++ Text.joinAll slash (dropIdle rest) =
        Text.joinAll slash ([] :: dropIdle rest) := by
      rw [Text.joinAll_cons_of_ne_nil hidle]
      rfl
    rw [hjoin, segments_joinAll (by simp), dropIdle_cons, dropIdle_dropIdle, if_neg hidle]
    intro s hs
    rcases List.mem_cons.1 hs with rfl | hs
    · simp
    · exact not_mem_dropIdle (fun t ht => hslash t (by simp [ht])) s hs

theorem folder_of_head_dot (h : p.segments.head? = some [dot]) (hrel : p.isAbsolute = false) :
    dropIdle p.folder.segments = dropIdle before ∧ p.folder.isAbsolute = false := by
  obtain ⟨rest, rfl⟩ : ∃ rest, before = [dot] :: rest := by
    rw [hp] at h
    cases before with
    | nil =>
      obtain rfl : name = [dot] := by simpa using h
      exact absurd hname (by decide)
    | cons s rest => exact ⟨rest, by rw [show s = [dot] by simpa using h]⟩
  have hslash := slash_not_mem_of_mem_before hp
  have hhead : p.head = [dot] := by simp [head, h, hrel]
  have hdrop : p.bytes.drop p.head.length = Text.joinAll slash (([] :: rest) ++ [name]) := by
    rw [bytes_eq_joinAll hp, hhead, List.cons_append, List.cons_append,
      Text.joinAll_cons_of_ne_nil (by simp), Text.joinAll_cons_of_ne_nil (by simp)]
    rfl
  have hsplit : Text.splitAll slash (p.bytes.drop p.head.length) = [] :: rest ++ [name] := by
    rw [hdrop]
    refine Text.splitAll_joinAll (by simp) fun s hs => ?_
    rcases List.mem_cons.1 hs with rfl | hs
    · simp
    · exact hslash s (by simp_all)
  have hbody := folder_eq hsplit hname
  rw [hhead, if_neg (by simp), dropIdle_cons] at hbody
  rw [hbody]
  refine ⟨?_, by simp [isAbsolute, dot, slash]⟩
  by_cases hidle : dropIdle rest = []
  · rw [if_pos hidle, dropIdle_cons [dot] rest, if_pos hidle]
    decide
  · rw [if_neg hidle, dropIdle_cons [dot] rest, if_neg hidle]
    have hjoin : [dot] ++ Text.joinAll slash ([] :: dropIdle rest) =
        Text.joinAll slash ([dot] :: dropIdle rest) := by
      rw [Text.joinAll_cons_of_ne_nil hidle, Text.joinAll_cons_of_ne_nil hidle]
      rfl
    rw [hjoin, segments_joinAll (by simp), dropIdle_cons, dropIdle_dropIdle, if_neg hidle]
    intro s hs
    rcases List.mem_cons.1 hs with rfl | hs
    · decide
    · exact not_mem_dropIdle (fun t ht => hslash t (by simp [ht])) s hs

theorem folder_of_plain (h : p.segments.head? ≠ some [dot]) (hrel : p.isAbsolute = false) :
    dropIdle p.folder.segments = dropIdle before ∧ p.folder.isAbsolute = false := by
  have hslash := slash_not_mem_of_mem_before hp
  have hhead : p.head = [] := by simp [head, h, hrel]
  have hsplit : Text.splitAll slash (p.bytes.drop p.head.length) = before ++ [name] := by
    rw [hhead]
    exact hp
  have hbody := folder_eq hsplit hname
  rw [hhead, List.nil_append] at hbody
  by_cases hidle : dropIdle before = []
  · rw [if_pos ((joinAll_dropIdle_eq_nil_iff before).2 hidle)] at hbody
    rw [hbody, hidle]
    decide
  · rw [if_neg (mt (joinAll_dropIdle_eq_nil_iff before).1 hidle)] at hbody
    have hsegments := segments_joinAll hidle (not_mem_dropIdle fun s hs => hslash s (by simp [hs]))
    rw [hbody, hsegments, dropIdle_dropIdle]
    refine ⟨rfl, ?_⟩
    rw [Bool.eq_false_iff]
    intro habs
    obtain ⟨more, -, hcons⟩ := isAbsolute_iff.1 habs
    rw [hsegments] at hcons
    obtain ⟨idle, happend, -⟩ := exists_dropIdle_append before
    have : p.isAbsolute := isAbsolute_iff.2 ⟨more ++ idle ++ [name], by simp, by
      rw [hp, happend, hcons]
      simp⟩
    simp [this] at hrel

/-- The folder of a path is spelt by the segments before the last one, idle ones at their end
apart. -/
theorem folder_spec :
    dropIdle p.folder.segments = dropIdle before ∧ p.folder.isAbsolute = p.isAbsolute := by
  cases hrel : p.isAbsolute with
  | true => exact folder_of_isAbsolute hp hname hrel
  | false =>
    by_cases h : p.segments.head? = some [dot]
    · exact folder_of_head_dot hp hname h hrel
    · exact folder_of_plain hp hname h hrel

end Folder

end Path

end PhotoTally
