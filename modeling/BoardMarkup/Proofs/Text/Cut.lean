import BoardMarkup.Text.Pieces

/-! Texts cut at a mark, or where a run of characters ends. -/
namespace BoardMarkup.Text

section Runs

variable {α : Type} {p : α → Bool}

theorem drop_length_takeWhile (p : α → Bool) (xs : List α) :
    xs.drop (xs.takeWhile p).length = xs.dropWhile p := by
  induction xs with
  | nil => rfl
  | cons x xs ih => by_cases h : p x <;> simp [h, ih]

theorem takeWhile_append_cons {x : α} (h : p x = false) (xs ys : List α) :
    (xs ++ x :: ys).takeWhile p = xs.takeWhile p := by
  induction xs with
  | nil => simp [h]
  | cons y xs ih => by_cases hy : p y <;> simp [hy, ih]

theorem dropWhile_append_cons {x : α} (h : p x = false) (xs ys : List α) :
    (xs ++ x :: ys).dropWhile p = xs.dropWhile p ++ x :: ys := by
  induction xs with
  | nil => simp [h]
  | cons y xs ih => by_cases hy : p y <;> simp [hy, ih]

end Runs

section Blocks

variable {α : Type}

theorem infix_of_infix_append {x : α} {block xs ys : List α}
    (h : x :: block <:+: xs ++ ys) (hx : x ∉ xs) : x :: block <:+: ys := by
  induction xs with
  | nil => exact h
  | cons y xs ih =>
    simp only [List.mem_cons, not_or] at hx
    rcases List.infix_cons_iff.1 h with h | h
    · exact absurd (List.cons_prefix_cons.1 h).1 hx.1
    · exact ih h hx.2

end Blocks

theorem after?_eq_some_iff {mark cs rest : List Char} :
    after? mark cs = some rest ↔ cs = mark ++ rest := by
  induction mark generalizing cs with
  | nil => simp [after?, eq_comm]
  | cons m mark ih =>
    cases cs with
    | nil => simp [after?]
    | cons c cs =>
      by_cases hm : m = c
      · simp [after?, hm, ih]
      · simp [after?, hm, Ne.symm hm]

theorem after?_isSome_iff {mark cs : List Char} : (after? mark cs).isSome ↔ mark <+: cs := by
  rw [Option.isSome_iff_exists]
  simp only [after?_eq_some_iff]
  exact ⟨fun ⟨rest, h⟩ => ⟨rest, h.symm⟩, fun ⟨rest, h⟩ => ⟨rest, h.symm⟩⟩

@[simp] theorem after?_append (mark rest : List Char) : after? mark (mark ++ rest) = some rest :=
  after?_eq_some_iff.2 rfl

theorem after?_eq_none_of_head {m c : Char} (h : m ≠ c) (mark cs : List Char) :
    after? (m :: mark) (c :: cs) = none := by
  simp [after?, h]

/-- A mark does not reach over a character that it does not hold. -/
theorem after?_append_cons {mark : List Char} {d : Char} (h : d ∉ mark) (xs ys : List Char) :
    after? mark (xs ++ d :: ys) = (after? mark xs).map (· ++ d :: ys) := by
  induction mark generalizing xs with
  | nil => rfl
  | cons m mark ih =>
    simp only [List.mem_cons, not_or] at h
    cases xs with
    | nil => rw [List.nil_append, after?_eq_none_of_head (Ne.symm h.1), after?, Option.map_none]
    | cons x xs =>
      rw [List.cons_append, after?, after?]
      split
      · exact ih h.2 xs
      · rfl

theorem after?_append_cons_isSome {mark : List Char} {d : Char} (h : d ∉ mark) (xs ys : List Char) :
    (after? mark (xs ++ d :: ys)).isSome = (after? mark xs).isSome := by
  rw [after?_append_cons h, Option.isSome_map]

theorem cut?_eq_append {mark cs before rest : List Char} (h : cut? mark cs = some (before, rest)) :
    cs = before ++ mark ++ rest := by
  induction cs generalizing before with
  | nil =>
    unfold cut? at h
    split at h
    · next hm =>
      cases h
      simpa using hm.symm
    · cases h
  | cons c cs ih =>
    unfold cut? at h
    cases ha : after? mark (c :: cs) with
    | some tail =>
      rw [ha] at h
      cases h
      exact after?_eq_some_iff.1 ha
    | none =>
      rw [ha] at h
      obtain ⟨⟨before, tail⟩, hc, he⟩ := Option.map_eq_some_iff.1 h
      cases he
      rw [ih hc]
      simp

/-- A text without the mark's first character is cut only behind its end. -/
theorem cut?_append {m : Char} {mark before : List Char} (h : m ∉ before) (rest : List Char) :
    cut? (m :: mark) (before ++ m :: mark ++ rest) = some (before, rest) := by
  induction before with
  | nil => simp [cut?, after?]
  | cons c before ih =>
    simp only [List.mem_cons, not_or] at h
    simp only [List.cons_append, cut?, after?_eq_none_of_head h.1] at ih ⊢
    rw [ih h.2]
    rfl

theorem cut?_eq_none {m : Char} {mark cs : List Char} (h : m ∉ cs) : cut? (m :: mark) cs = none := by
  induction cs with
  | nil => rfl
  | cons c cs ih =>
    simp only [List.mem_cons, not_or] at h
    simp [cut?, after?_eq_none_of_head h.1, ih h.2]

end BoardMarkup.Text
