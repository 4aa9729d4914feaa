import PhotoTally.Proofs.Json.Grammar

/-!
# Texts that are accepted

The readers of sequences and of maps accept exactly what the grammar spells, if the reader of their
items does (`matches_sequence`, `matches_map`).  A whole text is accepted exactly if it spells a
value with blanks around it (`Matches.readAll_eq_ok_iff`), so it spells one value at most
(`Matches.eq_of_speltText`).
-/

namespace PhotoTally.Json

variable {α : Type} {value : List Char → Reading α} {spelt : List Char → α → List Char → Prop}
  {s t u : List Char}

/-! ## Items -/

/-- Every item takes up some of the text, and so does the closing mark. -/
theorem SpeltItems.length_lt {closing : Char} {first : Bool} {xs : List α}
    (hspelt : ∀ s x t, spelt s x t → t.length < s.length)
    (h : SpeltItems spelt closing first s xs t) : xs.length + t.length < s.length := by
  induction h with
  | close hs =>
    have := hs.length_le
    simp only [List.length_cons, List.length_nil] at *
    omega
  | first hs hx _ ih =>
    have := hs.length_le
    have := hspelt _ _ _ hx
    simp only [List.length_cons] at *
    omega
  | next hs ht hx _ ih =>
    have := hs.length_le
    have := ht.length_le
    have := hspelt _ _ _ hx
    simp only [List.length_cons] at *
    omega

theorem Matches.length_lt (h : Matches value spelt) {x : α} (hx : spelt s x t) :
    t.length < s.length := by
  obtain ⟨c, rest, rfl, -, -, hlength⟩ := h.begins _ _ _ hx
  rw [List.length_cons]
  omega

theorem Matches.reads (h : Matches value spelt) {x : α} (hx : spelt s x t) :
    value s = .ok (x, t) :=
  (h.reads_iff s x t).2 ⟨s, .none, hx⟩

/-! ## Sequences -/

theorem closeSequence_eq_ok_iff : closeSequence s = .ok t ↔ Blanks s (']' :: t) := by
  unfold closeSequence
  constructor
  · intro h
    split at h
    · cases h
    · rename_i rest hclose
      obtain rfl := Except.ok.inj h
      exact blanks_of_skipBlank hclose
    · split at h
      · cases h
      · cases h
    · cases h
  · intro h
    rw [skipBlank_eq h (by decide)]
    rfl

theorem nextElement_eq_none_iff {first : Bool} :
    nextElement first s = .ok none ↔ ∃ rest, Blanks s (']' :: rest) := by
  unfold nextElement
  constructor
  · intro h
    split at h
    · cases h
    · rename_i rest hclose
      exact ⟨rest, blanks_of_skipBlank hclose⟩
    · split_ifs at h
      · cases h
      · split at h
        · cases h
        · cases h
        · cases h
      · cases h
  · rintro ⟨rest, h⟩
    rw [skipBlank_eq h (by decide)]
    rfl

/-- The next element follows at once, or behind a comma if there was one before. -/
theorem blanks_of_nextElement {first : Bool} (h : nextElement first s = .ok (some u)) :
    (first = true ∧ Blanks s u) ∨ (first = false ∧ ∃ t, Blanks s (',' :: t) ∧ Blanks t u) := by
  unfold nextElement at h
  split at h
  · cases h
  · cases h
  · rename_i c rest _ hskip
    split_ifs at h with hfirst hcomma
    · obtain rfl := Option.some.inj (Except.ok.inj h)
      exact .inl ⟨hfirst, blanks_of_skipBlank hskip⟩
    · subst hcomma
      split at h
      · cases h
      · cases h
      · obtain rfl := Option.some.inj (Except.ok.inj h)
        exact .inr ⟨by simpa using hfirst, rest, blanks_of_skipBlank hskip, blanks_skipBlank rest⟩
    · cases h

theorem Matches.nextElement_first (h : Matches value spelt) {x : α} (hs : Blanks s t)
    (hx : spelt t x u) : nextElement true s = .ok (some t) := by
  obtain ⟨c, rest, rfl, hc, hne, -⟩ := h.begins _ _ _ hx
  unfold nextElement
  rw [skipBlank_eq hs hc]
  split
  · simp_all
  · simp_all
  · simp_all

theorem Matches.nextElement_next (h : Matches value spelt) {x : α} {v : List Char}
    (hs : Blanks s (',' :: t)) (ht : Blanks t u) (hx : spelt u x v) :
    nextElement false s = .ok (some u) := by
  obtain ⟨c, rest, rfl, hc, hne, -⟩ := h.begins _ _ _ hx
  unfold nextElement
  rw [skipBlank_eq hs (by decide)]
  split
  · simp_all
  · simp_all
  · rename_i hcomma
    obtain ⟨rfl, rfl⟩ := List.cons.inj hcomma
    rw [if_neg (by simp), if_pos rfl, skipBlank_eq ht hc]
    split
    · simp_all
    · simp_all
    · rfl

theorem Matches.speltItems_of_readElements (h : Matches value spelt) {fuel : Nat} {first : Bool}
    {xs : List α} (hread : readElements value fuel first s = .ok (xs, t)) :
    SpeltItems spelt ']' first s xs t := by
  induction fuel generalizing first s xs with
  | zero => cases hread
  | succ fuel ih =>
    unfold readElements at hread
    split at hread
    · cases hread
    · obtain ⟨rest, hclose, heq⟩ := map_eq_ok_iff.1 hread
      obtain ⟨rfl, rfl⟩ := Prod.mk.inj heq
      exact .close (closeSequence_eq_ok_iff.1 hclose)
    · rename_i u hnext
      split at hread
      · cases hread
      · rename_i x rest hx
        obtain ⟨⟨more, after⟩, hmore, heq⟩ := map_eq_ok_iff.1 hread
        obtain ⟨rfl, rfl⟩ := Prod.mk.inj heq
        obtain ⟨v, hv, hspelt⟩ := (h.reads_iff _ _ _).1 hx
        rcases blanks_of_nextElement hnext with ⟨rfl, hs⟩ | ⟨rfl, t', hs, ht'⟩
        · exact .first (hs.trans hv) hspelt (ih hmore)
        · exact .next hs (ht'.trans hv) hspelt (ih hmore)

theorem Matches.readElements_of_speltItems (h : Matches value spelt) {fuel : Nat} {first : Bool}
    {xs : List α} (hspelt : SpeltItems spelt ']' first s xs t) (hfuel : xs.length < fuel) :
    readElements value fuel first s = .ok (xs, t) := by
  induction hspelt generalizing fuel with
  | @close first s t hs =>
    obtain ⟨fuel, rfl⟩ := Nat.exists_eq_add_one_of_ne_zero (Nat.ne_zero_of_lt hfuel)
    rw [readElements, nextElement_eq_none_iff.2 ⟨t, hs⟩]
    simp only
    rw [closeSequence_eq_ok_iff.2 hs]
    rfl
  | first hs hx _ ih =>
    obtain ⟨fuel, rfl⟩ := Nat.exists_eq_add_one_of_ne_zero (Nat.ne_zero_of_lt hfuel)
    rw [readElements, h.nextElement_first hs hx]
    simp only
    rw [h.reads hx]
    simp only
    rw [ih (by simpa using hfuel)]
    rfl
  | next hs ht hx _ ih =>
    obtain ⟨fuel, rfl⟩ := Nat.exists_eq_add_one_of_ne_zero (Nat.ne_zero_of_lt hfuel)
    rw [readElements, h.nextElement_next hs ht hx]
    simp only
    rw [h.reads hx]
    simp only
    rw [ih (by simpa using hfuel)]
    rfl

theorem matches_sequence (h : Matches value spelt) :
    Matches (readSequence value) (SpeltSequence spelt) where
  begins s xs t hxs := by
    obtain ⟨hitems⟩ := hxs
    have := hitems.length_lt fun _ _ _ => h.length_lt
    exact ⟨'[', _, rfl, by decide, by decide, by omega⟩
  reads_iff s xs t := by
    unfold readSequence
    constructor
    · intro hread
      split at hread
      · rename_i rest hopen
        exact ⟨_, blanks_of_skipBlank hopen, .mk (h.speltItems_of_readElements hread)⟩
      · exact absurd hread (refuse_ne_ok _ _ _)
    · rintro ⟨u, hs, hxs⟩
      obtain ⟨hitems⟩ := hxs
      rw [skipBlank_eq hs (by decide)]
      have := hitems.length_lt fun _ _ _ => h.length_lt
      exact h.readElements_of_speltItems hitems (by omega)

/-! ## Maps -/

theorem nextKey_eq_none_iff {first : Bool} :
    nextKey first s = .ok none ↔ ∃ rest, Blanks s ('}' :: rest) := by
  unfold nextKey
  constructor
  · intro h
    split at h
    · cases h
    · rename_i rest hclose
      exact ⟨rest, blanks_of_skipBlank hclose⟩
    · split_ifs at h
      · cases h
      · cases h
      · split at h
        · cases h
        · cases h
        · cases h
        · cases h
      · cases h
  · rintro ⟨rest, h⟩
    rw [skipBlank_eq h (by decide)]
    rfl

/-- The next key follows at once, or behind a comma if there was an entry before. -/
theorem nextKey_eq_some_iff {first : Bool} : nextKey first s = .ok (some u) ↔
    (first = true ∧ Blanks s ('"' :: u)) ∨
      (first = false ∧ ∃ t, Blanks s (',' :: t) ∧ Blanks t ('"' :: u)) := by
  unfold nextKey
  constructor
  · intro h
    split at h
    · cases h
    · cases h
    · rename_i c rest _ hskip
      split_ifs at h with hfirst hquote hcomma
      · obtain rfl := Option.some.inj (Except.ok.inj h)
        exact .inl ⟨hfirst, blanks_of_skipBlank (hquote ▸ hskip)⟩
      · cases h
      · split at h
        · cases h
        · rename_i key hkey
          obtain rfl := Option.some.inj (Except.ok.inj h)
          exact .inr ⟨by simpa using hfirst, rest, blanks_of_skipBlank (hcomma ▸ hskip),
            blanks_of_skipBlank hkey⟩
        · cases h
        · cases h
      · cases h
  · rintro (⟨rfl, hs⟩ | ⟨rfl, t, hs, ht⟩)
    · rw [skipBlank_eq hs (by decide)]
      rfl
    · rw [skipBlank_eq hs (by decide)]
      split
      · simp_all
      · simp_all
      · rename_i hcomma
        obtain ⟨rfl, rfl⟩ := List.cons.inj hcomma
        rw [if_neg (by simp), if_pos rfl, skipBlank_eq ht (by decide)]
        rfl

theorem readColon_eq_ok_iff : readColon s = .ok t ↔ Blanks s (':' :: t) := by
  unfold readColon
  constructor
  · intro h
    split at h
    · cases h
    · rename_i rest hcolon
      obtain rfl := Except.ok.inj h
      exact blanks_of_skipBlank hcolon
    · cases h
  · intro h
    rw [skipBlank_eq h (by decide)]
    rfl

/-- An entry is read behind its key. -/
theorem Matches.readEntry_eq_ok_iff (h : Matches value spelt) {entries es : List (String × α)}
    {key : String} : readEntry value entries key s = .ok (es, t) ↔
      ∃ x u v, Blanks s (':' :: u) ∧ Blanks u v ∧ spelt v x t ∧ es = entries ++ [(key, x)] := by
  unfold readEntry
  constructor
  · intro hread
    split at hread
    · cases hread
    · rename_i u hcolon
      obtain ⟨⟨x, rest⟩, hx, heq⟩ := map_eq_ok_iff.1 hread
      obtain ⟨rfl, rfl⟩ := Prod.mk.inj heq
      obtain ⟨v, hv, hspelt⟩ := (h.reads_iff _ _ _).1 hx
      exact ⟨x, u, v, readColon_eq_ok_iff.1 hcolon, hv, hspelt, rfl⟩
  · rintro ⟨x, u, v, hs, hu, hspelt, rfl⟩
    rw [readColon_eq_ok_iff.2 hs]
    simp only
    rw [(h.reads_iff u x t).2 ⟨v, hu, hspelt⟩]
    rfl

theorem Matches.speltItems_of_readEntries (h : Matches value spelt) {fuel : Nat} {first : Bool}
    {entries es : List (String × α)}
    (hread : readEntries (readEntry value) fuel first entries s = .ok (es, t)) :
    ∃ more, es = entries ++ more ∧ SpeltItems (SpeltEntry spelt) '}' first s more t := by
  induction fuel generalizing first s entries with
  | zero => cases hread
  | succ fuel ih =>
    unfold readEntries at hread
    split at hread
    · cases hread
    · rename_i hnone
      obtain ⟨rest, hclose⟩ := nextKey_eq_none_iff.1 hnone
      rw [skipBlank_eq hclose (by decide)] at hread
      obtain ⟨rfl, rfl⟩ := Prod.mk.inj (Except.ok.inj hread)
      exact ⟨[], (List.append_nil _).symm, .close hclose⟩
    · rename_i u hnext
      split at hread
      · cases hread
      · rename_i key v hkey
        split at hread
        · cases hread
        · rename_i st w hentry
          obtain ⟨x, u', v', hv, hu', hspelt, rfl⟩ := h.readEntry_eq_ok_iff.1 hentry
          obtain ⟨more, rfl, hmore⟩ := ih hread
          have hfirst : SpeltEntry spelt ('"' :: u) (key, x) w :=
            .mk (readText_eq_ok_iff.1 hkey) hv hu' hspelt
          refine ⟨(key, x) :: more, by simp, ?_⟩
          rcases nextKey_eq_some_iff.1 hnext with ⟨rfl, hs⟩ | ⟨rfl, t', hs, ht'⟩
          · exact .first hs hfirst hmore
          · exact .next hs ht' hfirst hmore

/-- One entry is read once its key was found. -/
theorem Matches.readEntries_step (h : Matches value spelt) {fuel : Nat} {first : Bool}
    {entries : List (String × α)} {e : String × α} {v : List Char}
    (hnext : ∀ rest, u = '"' :: rest → nextKey first s = .ok (some rest))
    (he : SpeltEntry spelt u e v) :
    readEntries (readEntry value) (fuel + 1) first entries s =
      readEntries (readEntry value) fuel false (entries ++ [e]) v := by
  obtain ⟨hkey, hcolon, hblanks, hx⟩ := he
  obtain ⟨rest, rfl, -⟩ := hkey.exists_quote
  rw [readEntries, hnext rest rfl]
  simp only
  rw [readText_eq_ok_iff.2 hkey]
  simp only
  rw [h.readEntry_eq_ok_iff.2 ⟨_, _, _, hcolon, hblanks, hx, rfl⟩]

theorem Matches.readEntries_of_speltItems (h : Matches value spelt) {fuel : Nat} {first : Bool}
    {es : List (String × α)} (entries : List (String × α))
    (hspelt : SpeltItems (SpeltEntry spelt) '}' first s es t) (hfuel : es.length < fuel) :
    readEntries (readEntry value) fuel first entries s = .ok (entries ++ es, t) := by
  induction hspelt generalizing fuel entries with
  | @close first s t hs =>
    obtain ⟨fuel, rfl⟩ := Nat.exists_eq_add_one_of_ne_zero (Nat.ne_zero_of_lt hfuel)
    rw [readEntries, nextKey_eq_none_iff.2 ⟨t, hs⟩]
    simp only
    rw [skipBlank_eq hs (by decide), List.append_nil, List.tail_cons]
  | first hs he _ ih =>
    obtain ⟨fuel, rfl⟩ := Nat.exists_eq_add_one_of_ne_zero (Nat.ne_zero_of_lt hfuel)
    rw [h.readEntries_step (fun rest hrest => nextKey_eq_some_iff.2 (.inl ⟨rfl, hrest ▸ hs⟩)) he,
      ih _ (by simpa using hfuel), List.append_assoc]
    rfl
  | next hs ht he _ ih =>
    obtain ⟨fuel, rfl⟩ := Nat.exists_eq_add_one_of_ne_zero (Nat.ne_zero_of_lt hfuel)
    rw [h.readEntries_step
        (fun rest hrest => nextKey_eq_some_iff.2 (.inr ⟨rfl, _, hs, hrest ▸ ht⟩)) he,
      ih _ (by simpa using hfuel), List.append_assoc]
    rfl

theorem Matches.length_lt_entry (h : Matches value spelt) {e : String × α}
    (he : SpeltEntry spelt s e t) : t.length < s.length := by
  obtain ⟨hkey, hcolon, hblanks, hx⟩ := he
  have := matches_string.length_lt hkey
  have := hcolon.length_le
  have := hblanks.length_le
  have := h.length_lt hx
  simp only [List.length_cons] at *
  omega

theorem matches_map (h : Matches value spelt) : Matches (readMap value) (SpeltMap spelt) where
  begins s es t hes := by
    obtain ⟨hitems⟩ := hes
    have := hitems.length_lt fun _ _ _ => h.length_lt_entry
    exact ⟨'{', _, rfl, by decide, by decide, by omega⟩
  reads_iff s es t := by
    constructor
    · intro hread
      unfold readMap at hread
      split at hread
      · rename_i rest hbrace
        obtain ⟨more, rfl, hmore⟩ := h.speltItems_of_readEntries hread
        exact ⟨_, blanks_of_skipBlank hbrace, .mk hmore⟩
      · exact absurd hread (refuse_ne_ok _ _ _)
    · rintro ⟨u, hs, hes⟩
      obtain ⟨hitems⟩ := hes
      have := hitems.length_lt fun _ _ _ => h.length_lt_entry
      unfold readMap
      rw [skipBlank_eq hs (by decide)]
      exact h.readEntries_of_speltItems [] hitems (by omega)

/-! ## Whole texts -/

/-- A reader accepts a whole text exactly if the text spells the value. -/
theorem Matches.readAll_eq_ok_iff (h : Matches value spelt) {text : String} {x : α} :
    readAll value text = .ok x ↔ SpeltText spelt text x := by
  unfold readAll SpeltText
  rw [mapError_eq_ok_iff]
  constructor
  · intro hread
    split at hread
    · cases hread
    · rename_i y rest hy
      split at hread
      · rename_i hend
        obtain rfl := Except.ok.inj hread
        obtain ⟨s, hs, hspelt⟩ := (h.reads_iff _ _ _).1 hy
        exact ⟨s, rest, hs, hspelt, skipBlank_eq_nil_iff.1 hend⟩
      · cases hread
  · rintro ⟨s, t, hs, hspelt, hend⟩
    rw [(h.reads_iff text.toList x t).2 ⟨s, hs, hspelt⟩]
    simp only
    rw [skipBlank_eq_nil_iff.2 hend]

/-- A text spells at most one value. -/
theorem Matches.eq_of_speltText (h : Matches value spelt) {text : String} {x y : α}
    (hx : SpeltText spelt text x) (hy : SpeltText spelt text y) : x = y :=
  Except.ok.inj ((h.readAll_eq_ok_iff.2 hx).symm.trans (h.readAll_eq_ok_iff.2 hy))

end PhotoTally.Json
