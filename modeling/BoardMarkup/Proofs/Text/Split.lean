import BoardMarkup.Text.Pieces

/-! The parts of a text between separators. -/
namespace BoardMarkup.Text

theorem split_ne_nil (separator : Char) (cs : List Char) : split separator cs ≠ [] := by
  cases cs with
  | nil => simp [split]
  | cons c cs =>
    unfold split
    split
    · simp
    · split <;> simp

theorem split_of_notMem {separator : Char} {cs : List Char} (h : separator ∉ cs) :
    split separator cs = [cs] := by
  induction cs with
  | nil => rfl
  | cons c cs ih =>
    simp only [List.mem_cons, not_or] at h
    rw [split, if_neg (Ne.symm h.1), ih h.2]

theorem split_append_cons (separator : Char) (xs ys : List Char) :
    split separator (xs ++ separator :: ys) = split separator xs ++ split separator ys := by
  induction xs with
  | nil => simp [split]
  | cons x xs ih =>
    rw [List.cons_append, split, split]
    split
    · rw [ih, List.cons_append]
    · rw [ih]
      cases h : split separator xs with
      | nil => exact absurd h (split_ne_nil _ _)
      | cons part parts => rfl

/-- Parts without a separator are told apart again. -/
theorem split_append_flatMap {separator : Char} {first : List Char} {parts : List (List Char)}
    (hfirst : separator ∉ first) (hparts : ∀ part ∈ parts, separator ∉ part) :
    split separator (first ++ parts.flatMap (separator :: ·)) = first :: parts := by
  induction parts generalizing first with
  | nil => rw [List.flatMap_nil, List.append_nil, split_of_notMem hfirst]
  | cons part parts ih =>
    rw [List.flatMap_cons, List.cons_append, split_append_cons, split_of_notMem hfirst,
      ih (hparts part (by simp)) fun p hp => hparts p (.tail _ hp), List.singleton_append]

theorem exists_last_separator {separator : Char} {cs : List Char} (h : separator ∈ cs) :
    ∃ before after, cs = before ++ separator :: after ∧ separator ∉ after := by
  obtain ⟨after, before, hr, hn⟩ := List.eq_append_cons_of_mem (List.mem_reverse.2 h)
  refine ⟨before.reverse, after.reverse, ?_, by rwa [List.mem_reverse]⟩
  rw [← List.reverse_reverse cs, hr]
  simp

theorem split_eq_concat {separator : Char} {cs last : List Char} {init : List (List Char)}
    (h : split separator cs = init ++ [last]) :
    separator ∉ last ∧ ∃ before, cs = before ++ last ∧
      (before = [] ∨ ∃ start, before = start ++ [separator]) := by
  by_cases hm : separator ∈ cs
  · obtain ⟨start, tail, rfl, hn⟩ := exists_last_separator hm
    rw [split_append_cons, split_of_notMem hn] at h
    obtain ⟨-, hl⟩ := List.append_inj' h rfl
    cases hl
    exact ⟨hn, start ++ [separator], by simp, .inr ⟨_, rfl⟩⟩
  · rw [split_of_notMem hm] at h
    obtain ⟨-, hl⟩ := List.append_inj' ((List.nil_append _).trans h) rfl
    cases hl
    exact ⟨hm, [], rfl, .inl rfl⟩

theorem notMem_of_mem_split {separator : Char} {cs part : List Char}
    (h : part ∈ split separator cs) : separator ∉ part := by
  induction cs generalizing part with
  | nil =>
    rw [split, List.mem_singleton] at h
    simp [h]
  | cons c cs ih =>
    unfold split at h
    split at h
    · rcases List.mem_cons.1 h with rfl | h
      · simp
      · exact ih h
    · next hc =>
      split at h
      · rw [List.mem_singleton] at h
        simp [h, Ne.symm hc]
      · next first rest hsplit =>
        rcases List.mem_cons.1 h with rfl | h
        · simp [Ne.symm hc, ih (hsplit ▸ List.mem_cons_self)]
        · exact ih (hsplit ▸ List.mem_cons_of_mem _ h)

theorem eq_of_split {separator : Char} {cs first : List Char} {rest : List (List Char)}
    (h : split separator cs = first :: rest) : cs = first ++ rest.flatMap (separator :: ·) := by
  induction cs generalizing first rest with
  | nil =>
    obtain ⟨rfl, rfl⟩ := List.cons.inj h
    rfl
  | cons c cs ih =>
    unfold split at h
    split at h
    · next hc =>
      obtain ⟨rfl, rfl⟩ := List.cons.inj h
      cases hs : split separator cs with
      | nil => exact absurd hs (split_ne_nil _ _)
      | cons part parts => rw [hc, List.nil_append, List.flatMap_cons, List.cons_append, ← ih hs]
    · cases hs : split separator cs with
      | nil => exact absurd hs (split_ne_nil _ _)
      | cons part parts =>
        rw [hs] at h
        obtain ⟨rfl, rfl⟩ := List.cons.inj h
        rw [List.cons_append, ← ih hs]

end BoardMarkup.Text
