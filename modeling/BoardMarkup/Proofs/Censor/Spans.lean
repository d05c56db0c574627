import BoardMarkup.Proofs.Censor.Replacement

/-! Which parts of a text are replaced, and that no match is passed over. -/
namespace BoardMarkup.Censor

open Text

structure Span where
  start : Nat
  length : Nat
  text : List Char
  deriving DecidableEq

def Span.Overlaps (s : Span) (start length : Nat) : Prop :=
  s.start < start + length ∧ start < s.start + s.length

/-- The spans from a place on whose next `skip` characters belong to the last one. -/
def spansFrom : Nat → Nat → List (Char × Option Match) → List Span
  | _, _, [] => []
  | place, skip + 1, _ :: rest => spansFrom (place + 1) skip rest
  | place, 0, (_, none) :: rest => spansFrom (place + 1) 0 rest
  | _, 0, (_, some (0, _)) :: _ => []
  | place, 0, (_, some (n + 1, text)) :: rest => ⟨place, n + 1, text⟩ :: spansFrom (place + 1) n rest

def WordList.spans (compiles : String → Bool) (l : WordList) (s : String) : List Span :=
  spansFrom 0 0 (s.toList.zip (firstMatches (l.usable compiles) (Place.ofSigns (s.toList.map Sign.ofChar))))

/-- A text from a place on, with spans of it replaced and all else as it stands. -/
def splice : Nat → List Span → List Char → List Char
  | _, [], cs => cs
  | place, s :: spans, cs =>
    cs.take (s.start - place) ++ s.text ++
      splice (s.start + s.length) spans (cs.drop (s.start - place + s.length))

section Spans

variable {place skip : Nat} {ps : List (Char × Option Match)}

private theorem le_start {s : Span} (h : s ∈ spansFrom place skip ps) : place ≤ s.start := by
  induction place, skip, ps using spansFrom.induct with
  | case1 => simp [spansFrom] at h
  | case2 place skip p rest ih => exact Nat.le_of_succ_le (ih h)
  | case3 place c rest ih => exact Nat.le_of_succ_le (ih h)
  | case4 => simp [spansFrom] at h
  | case5 place c n text rest ih =>
    rcases List.mem_cons.1 h with rfl | h
    · exact Nat.le_refl _
    · exact Nat.le_of_succ_le (ih h)

private theorem splice_cons {spans : List Span} (h : ∀ s ∈ spans, place < s.start)
    (c : Char) (cs : List Char) :
    splice place spans (c :: cs) = c :: splice (place + 1) spans cs := by
  cases spans with
  | nil => rfl
  | cons s spans =>
    have hs : s.start - place = s.start - (place + 1) + 1 := by
      have := h s List.mem_cons_self
      omega
    have hdrop : s.start - (place + 1) + 1 + s.length = s.start - (place + 1) + s.length + 1 := by omega
    rw [splice, splice, hs, hdrop, List.take_succ_cons, List.drop_succ_cons]
    rfl

theorem replaceMatches_eq_splice (place skip : Nat) (ps : List (Char × Option Match)) :
    replaceMatches skip ps = splice (place + skip) (spansFrom place skip ps) ((ps.map (·.1)).drop skip) := by
  induction place, skip, ps using spansFrom.induct with
  | case1 place skip => simp [replaceMatches, spansFrom, splice]
  | case2 place skip p rest ih =>
    have hplace : place + 1 + skip = place + (skip + 1) := by omega
    rw [replaceMatches, spansFrom, ih, hplace, List.map_cons, List.drop_succ_cons]
  | case3 place c rest ih =>
    rw [replaceMatches, spansFrom, ih, List.map_cons, List.drop_zero, List.drop_zero]
    exact (splice_cons (fun s hs => le_start hs) c _).symm
  | case4 place c text rest => rw [replaceMatches, spansFrom, splice, List.map_cons, List.drop_zero]
  | case5 place c n text rest ih =>
    have hplace : place + 1 + n = place + (n + 1) := by omega
    rw [replaceMatches, spansFrom, ih, hplace, splice]
    simp

/-- A place with a match lies in a span, unless it belongs to the one before. -/
theorem exists_span {c : Char} {n : Nat} {text : List Char} {k : Nat}
    (hfull : ∀ p ∈ ps, ∀ t, p.2 ≠ some (0, t))
    (h : ps[k]? = some (c, some (n + 1, text))) :
    k < skip ∨ ∃ s ∈ spansFrom place skip ps, s.start ≤ place + k ∧ place + k < s.start + s.length := by
  induction place, skip, ps using spansFrom.induct generalizing k with
  | case1 => simp at h
  | case2 place skip p rest ih =>
    cases k with
    | zero => exact .inl (by omega)
    | succ k =>
      rcases ih (fun p hp => hfull p (.tail _ hp)) h with hk | ⟨s, hs, hin⟩
      · exact .inl (by omega)
      · exact .inr ⟨s, hs, by omega⟩
  | case3 place c rest ih =>
    cases k with
    | zero => cases h
    | succ k =>
      rcases ih (fun p hp => hfull p (.tail _ hp)) h with hk | ⟨s, hs, hin⟩
      · exact absurd hk (by omega)
      · exact .inr ⟨s, hs, by omega⟩
  | case4 place c text rest => exact absurd rfl (hfull _ List.mem_cons_self text)
  | case5 place c m t rest ih =>
    right
    cases k with
    | zero => exact ⟨⟨place, m + 1, t⟩, List.mem_cons_self, by simp⟩
    | succ k =>
      rcases ih (fun p hp => hfull p (.tail _ hp)) h with hk | ⟨s, hs, hin⟩
      · exact ⟨⟨place, m + 1, t⟩, List.mem_cons_self, by simp; omega⟩
      · exact ⟨s, .tail _ hs, by omega⟩

theorem match_of_span {s : Span} (h : s ∈ spansFrom place skip ps) :
    ∃ k c, ps[k]? = some (c, some (s.length, s.text)) ∧ s.start = place + k := by
  induction place, skip, ps using spansFrom.induct with
  | case1 => simp [spansFrom] at h
  | case2 place skip p rest ih =>
    obtain ⟨k, c, hk, hs⟩ := ih h
    exact ⟨k + 1, c, hk, by omega⟩
  | case3 place c rest ih =>
    obtain ⟨k, d, hk, hs⟩ := ih h
    exact ⟨k + 1, d, hk, by omega⟩
  | case4 => simp [spansFrom] at h
  | case5 place c n text rest ih =>
    rcases List.mem_cons.1 h with rfl | h
    · exact ⟨0, c, rfl, rfl⟩
    · obtain ⟨k, d, hk, hs⟩ := ih h
      exact ⟨k + 1, d, hk, by omega⟩

end Spans

section Search

variable {ws : List Word}

def searched (ws : List Word) (sign : Option Sign) (cs : List Char) : List (Char × Option Match) :=
  cs.zip (firstMatches ws (placesFrom sign cs))

theorem searched_cons (ws : List Word) (sign : Option Sign) (c : Char) (cs : List Char) :
    searched ws sign (c :: cs) =
      (c, firstMatch ws sign (c :: cs)) :: searched ws (some (Sign.ofChar c)) cs := by
  rw [searched, firstMatches_cons, List.zip_cons_cons, searched]

theorem map_fst_searched (ws : List Word) (sign : Option Sign) (cs : List Char) :
    (searched ws sign cs).map (·.1) = cs := by
  induction cs generalizing sign with
  | nil => rfl
  | cons c cs ih => rw [searched_cons, List.map_cons, ih]

theorem getElem?_searched (ws : List Word) (sign : Option Sign) (before : List Char)
    (c : Char) (after : List Char) :
    (searched ws sign (before ++ c :: after))[before.length]? =
      some (c, firstMatch ws (signAfter sign before) (c :: after)) := by
  induction before generalizing sign with
  | nil => rw [List.nil_append, searched_cons]; rfl
  | cons d before ih =>
    rw [List.cons_append, searched_cons, List.length_cons, List.getElem?_cons_succ]
    exact ih (some (Sign.ofChar d))

theorem exists_of_getElem?_searched {sign : Option Sign} {cs : List Char} {k : Nat} {p : Char × Option Match}
    (h : (searched ws sign cs)[k]? = some p) :
    ∃ before after, cs = before ++ p.1 :: after ∧ before.length = k ∧
      p.2 = firstMatch ws (signAfter sign before) (p.1 :: after) := by
  induction cs generalizing sign k with
  | nil => cases h
  | cons c cs ih =>
    rw [searched_cons] at h
    cases k with
    | zero =>
      cases h
      exact ⟨[], cs, rfl, rfl, rfl⟩
    | succ k =>
      obtain ⟨before, after, rfl, rfl, hp⟩ := ih h
      exact ⟨c :: before, after, rfl, rfl, hp⟩

theorem WordList.spans_eq (compiles : String → Bool) (l : WordList) (s : String) :
    l.spans compiles s = spansFrom 0 0 (searched (l.usable compiles) none s.toList) := by
  rw [spans, ofSigns_eq, searched]

theorem WordList.censor_eq_splice (compiles : String → Bool) (l : WordList) (s : String) :
    (l.censorWith compiles s).toList = splice 0 (l.spans compiles s) s.toList := by
  have hchars := map_fst_searched (l.usable compiles) none s.toList
  rw [toList_censorWith, censorFrom, ← searched, replaceMatches_eq_splice 0 0, ← spans_eq, hchars,
    List.drop_zero]

/-- A span is a match of the first word that matches there. -/
theorem matchesAt_of_mem_spans {compiles : String → Bool} {l : WordList} {text : String} {s : Span}
    (h : s ∈ l.spans compiles text) :
    ∃ before span after, text.toList = before ++ span ++ after ∧ before.length = s.start ∧
      span.length = s.length ∧ ∃ w ∈ l.usable compiles, MatchesAt w before span after ∧ s.text = w.text := by
  rw [WordList.spans_eq] at h
  obtain ⟨k, c, hk, hstart⟩ := match_of_span h
  obtain ⟨before, rest, htext, hlength, hmatch⟩ := exists_of_getElem?_searched hk
  obtain ⟨earlier, w, later, span, after, hws, -, hspan, hn, hm, ht⟩ := firstMatch_eq_some hmatch.symm
  refine ⟨before, span, after, ?_, by omega, hn, w, ?_, hm, ht⟩
  · rw [htext, hspan, List.append_assoc]
  · rw [hws]
    simp

/-- Where a word matches a text there is a span, unless a word consists of asterisks only. -/
theorem exists_span_of_occurs {compiles : String → Bool} {l : WordList} {before rest : List Char} {c : Char}
    (h : ∀ w ∈ l.words, ∃ c ∈ w.word.toList, c ≠ '*')
    (ho : Occurs (l.usable compiles) before (c :: rest)) :
    ∃ s ∈ l.spans compiles (String.ofList (before ++ c :: rest)), s.start ≤ before.length ∧
      before.length < s.start + s.length := by
  set ws := l.usable compiles with hws
  have hfull : ∀ p ∈ searched ws none (before ++ c :: rest), ∀ t, p.2 ≠ some (0, t) := by
    intro p hp t ht
    obtain ⟨k, hk⟩ := List.mem_iff_getElem?.1 hp
    obtain ⟨xs, ys, -, -, hmatch⟩ := exists_of_getElem?_searched hk
    rw [ht] at hmatch
    obtain ⟨earlier, w, later, span, after, hsplit, -, -, hn, hm, -⟩ := firstMatch_eq_some hmatch.symm
    have hw : w ∈ ws := by simp [hsplit]
    obtain ⟨d, hd, hne⟩ := h w (List.mem_filter.1 hw).1
    rw [List.length_eq_zero_iff.1 hn] at hm
    exact hne (eq_asterisk_of_spells_nil hm.spells d hd)
  have hhere := getElem?_searched ws none before c rest
  cases hfound : firstMatch ws (signAfter none before) (c :: rest) with
  | none => exact absurd ho (firstMatch_eq_none_iff.1 hfound)
  | some found =>
    obtain ⟨n, t⟩ := found
    rw [hfound] at hhere
    cases n with
    | zero => exact absurd rfl (hfull _ (List.mem_of_getElem? hhere) t)
    | succ n =>
      rw [WordList.spans_eq, String.toList_ofList]
      have hspan : before.length < 0 ∨
          ∃ s ∈ spansFrom 0 0 (searched ws none (before ++ c :: rest)),
            s.start ≤ 0 + before.length ∧ 0 + before.length < s.start + s.length :=
        exists_span hfull hhere
      rcases hspan with hk | ⟨s, hs, hin⟩
      · exact absurd hk (Nat.not_lt_zero _)
      · exact ⟨s, hs, by omega⟩

end Search

end BoardMarkup.Censor
