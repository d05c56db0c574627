import BoardMarkup.Table
import Mathlib.Data.List.Induction

/-! What a table holds after each operation. -/
namespace BoardMarkup.Table

variable {α β : Type}

theorem find?_key_eq_some_iff {es : List (String × α)} (h : es.Pairwise (·.1 ≠ ·.1)) {k : String}
    {v : α} : (es.find? (·.1 == k)).map (·.2) = some v ↔ (k, v) ∈ es := by
  induction es with
  | nil => simp
  | cons e es ih =>
    obtain ⟨he, hes⟩ := List.pairwise_cons.1 h
    rw [List.find?_cons, List.mem_cons]
    by_cases hk : e.1 = k
    · have hno : (k, v) ∉ es := fun hm => he _ hm hk
      simp only [hk, beq_self_eq_true, Option.map_some, Option.some.injEq, hno, or_false]
      exact ⟨fun hv => by rw [← hk, ← hv], fun hv => by rw [← hv]⟩
    · have hne : (k, v) ≠ e := fun hv => hk (by rw [← hv])
      simp only [beq_eq_false_iff_ne.2 hk, ih hes, hne, false_or]

theorem entries_distinct (t : Table α) : t.entries.Pairwise (·.1 ≠ ·.1) :=
  t.ascending.imp fun {_ _} hlt => Std.ne_of_lt hlt

theorem get?_eq_some_iff {t : Table α} {k : String} {v : α} :
    t.get? k = some v ↔ (k, v) ∈ t.entries :=
  find?_key_eq_some_iff t.entries_distinct

theorem contains_eq_isSome (t : Table α) (k : String) : t.contains k = (t.get? k).isSome := by
  rw [contains, get?, Option.isSome_map, List.isSome_find?]

@[simp] theorem get?_empty (k : String) : (empty : Table α).get? k = none := rfl

@[simp] theorem contains_empty (k : String) : (empty : Table α).contains k = false := rfl

/-- Tables with the same values under all keys are equal. -/
theorem ext_get? {t u : Table α} (h : ∀ k, t.get? k = u.get? k) : t = u := by
  have hmem : ∀ e, e ∈ t.entries ↔ e ∈ u.entries := fun e => by
    rw [← get?_eq_some_iff (k := e.1) (v := e.2), h, get?_eq_some_iff]
  have hn : ∀ w : Table α, w.entries.Nodup := fun w =>
    w.entries_distinct.imp fun {_ _} hne => mt (congrArg Prod.fst) hne
  have hp : t.entries.Perm u.entries := (List.perm_ext_iff_of_nodup (hn t) (hn u)).2 hmem
  refine ext (hp.eq_of_pairwise (fun a b _ _ hab hba => ?_) t.ascending u.ascending)
  exact absurd (String.lt_trans hab hba) (String.lt_irrefl _)

theorem get?_eq_none_iff {t : Table α} {k : String} : t.get? k = none ↔ t.contains k = false := by
  rw [contains_eq_isSome, Option.isSome_eq_false_iff, Option.isNone_iff_eq_none]

private theorem find?_insertEntry (k j : String) (v : α) (es : List (String × α)) :
    (insertEntry k v es).find? (·.1 == j) =
      if j = k then some (k, v) else es.find? (·.1 == j) := by
  induction es with
  | nil =>
    by_cases hj : j = k
    · simp [insertEntry, hj]
    · simp [insertEntry, hj, beq_eq_false_iff_ne.2 (Ne.symm hj)]
  | cons e es ih =>
    unfold insertEntry
    by_cases hj : j = k
    · subst hj
      split
      · simp
      · split
        · simp
        · next hne => simp [ih, beq_eq_false_iff_ne.2 (Ne.symm hne)]
    · rw [if_neg hj] at ih ⊢
      split
      · simp [beq_eq_false_iff_ne.2 (Ne.symm hj)]
      · split
        · next he => simp [beq_eq_false_iff_ne.2 (Ne.symm hj), ← he]
        · simp only [List.find?_cons, ih]

@[simp] theorem get?_insert (t : Table α) (k j : String) (v : α) :
    (t.insert k v).get? j = if j = k then some v else t.get? j := by
  simp only [get?, insert, find?_insertEntry]
  split <;> rfl

@[simp] theorem contains_insert (t : Table α) (k j : String) (v : α) :
    (t.insert k v).contains j = (j == k || t.contains j) := by
  by_cases h : j = k <;> simp [contains_eq_isSome, h]

@[simp] theorem get?_erase (t : Table α) (k j : String) :
    (t.erase k).get? j = if j = k then none else t.get? j := by
  apply Option.ext
  intro v
  rw [get?_eq_some_iff]
  by_cases h : j = k
  · simp [erase, h]
  · simp [erase, h, get?_eq_some_iff]

theorem get?_insert_eq_some_iff {t : Table α} {k j : String} {v w : α} :
    (t.insert k w).get? j = some v ↔ j = k ∧ w = v ∨ j ≠ k ∧ t.get? j = some v := by
  by_cases h : j = k <;> simp [h]

theorem get?_erase_eq_some_iff {t : Table α} {k j : String} {v : α} :
    (t.erase k).get? j = some v ↔ j ≠ k ∧ t.get? j = some v := by
  by_cases h : j = k <;> simp [h]

/-- What is inserted under a new key and erased again leaves nothing behind. -/
theorem erase_insert {t : Table α} {k : String} (h : t.contains k = false) (v : α) :
    (t.insert k v).erase k = t := by
  apply ext_get?
  intro j
  rw [get?_erase, get?_insert]
  split
  · next hj => rw [hj, get?_eq_none_iff.2 h]
  · rfl

/-- What is erased again was not there before, if the table is as it was. -/
theorem erase_insert_eq_iff {t : Table α} {k : String} {v : α} :
    (t.insert k v).erase k = t ↔ t.contains k = false := by
  constructor
  · intro h
    rw [← h, ← get?_eq_none_iff, get?_erase, if_pos rfl]
  · intro h
    exact erase_insert h v

theorem contains_erase (t : Table α) (k j : String) :
    (t.erase k).contains j = (j != k && t.contains j) := by
  by_cases h : j = k <;> simp [contains_eq_isSome, h]

@[simp] theorem get?_modify (t : Table α) (k j : String) (f : α → α) :
    (t.modify k f).get? j = if j = k then (t.get? k).map f else t.get? j := by
  unfold modify
  cases h : t.get? k with
  | none => by_cases hj : j = k <;> simp [hj, h]
  | some v => by_cases hj : j = k <;> simp [hj]

private theorem ofList_append_singleton (es : List (String × α)) (e : String × α) :
    ofList (es ++ [e]) = (ofList es).insert e.1 e.2 := by
  simp only [ofList, List.foldl_append, List.foldl_cons, List.foldl_nil]

theorem get?_ofList (es : List (String × α)) (k : String) :
    (ofList es).get? k = (es.reverse.find? (·.1 == k)).map (·.2) := by
  induction es using List.reverseRecOn with
  | nil => rfl
  | append_singleton es e ih =>
    rw [ofList_append_singleton, get?_insert, ih, List.reverse_concat, List.find?_cons]
    by_cases h : k = e.1
    · simp [h]
    · simp [h, beq_eq_false_iff_ne.2 (Ne.symm h)]

theorem get?_ofList_eq_some_iff {es : List (String × α)} (h : es.Pairwise (·.1 ≠ ·.1)) {k : String}
    {v : α} : (ofList es).get? k = some v ↔ (k, v) ∈ es := by
  rw [get?_ofList, find?_key_eq_some_iff, List.mem_reverse]
  exact List.pairwise_reverse.2 (h.imp fun {_ _} hne => hne.symm)

theorem get?_ofList_append {es later : List (String × α)} {k : String} (v : α)
    (h : ∀ e ∈ later, e.1 ≠ k) : (ofList (es ++ (k, v) :: later)).get? k = some v := by
  have hlater : later.reverse.find? (·.1 == k) = none := by
    rw [List.find?_eq_none]
    intro e he
    simpa using h e (List.mem_reverse.1 he)
  rw [get?_ofList, List.reverse_append, List.reverse_cons, List.append_assoc, List.find?_append, hlater]
  simp

theorem get?_ofList_eq_none {es : List (String × α)} {k : String} (h : ∀ e ∈ es, e.1 ≠ k) :
    (ofList es).get? k = none := by
  have hnone : es.reverse.find? (·.1 == k) = none := by
    rw [List.find?_eq_none]
    intro e he
    simpa using h e (List.mem_reverse.1 he)
  rw [get?_ofList, hnone, Option.map_none]

@[simp] theorem ofList_entries (t : Table α) : ofList t.entries = t :=
  ext_get? fun k => Option.ext fun v => by
    rw [get?_ofList_eq_some_iff t.entries_distinct, get?_eq_some_iff]

section Listed

variable {ι : Type} {t : Table α} {xs : List ι} {key : ι → String} {val : ι → α} {k : String}

/-- A key is taken in a table that lists some things if one of them has it. -/
theorem contains_iff_of_listed (h : ∀ v, t.get? k = some v ↔ ∃ x ∈ xs, key x = k ∧ val x = v) :
    t.contains k = true ↔ ∃ x ∈ xs, key x = k := by
  rw [contains_eq_isSome, Option.isSome_iff_exists]
  simp only [h]
  exact ⟨fun ⟨_, x, hx, hk, _⟩ => ⟨x, hx, hk⟩, fun ⟨x, hx, hk⟩ => ⟨_, x, hx, hk, rfl⟩⟩

theorem listed_insert (h : ∀ v, t.get? k = some v ↔ ∃ x ∈ xs, key x = k ∧ val x = v) {y : ι}
    (hfree : ∀ x ∈ xs, key x ≠ key y) (v : α) :
    (t.insert (key y) (val y)).get? k = some v ↔ ∃ x ∈ xs ++ [y], key x = k ∧ val x = v := by
  simp only [get?_insert, List.mem_append, List.mem_singleton, or_and_right, exists_or, exists_eq_left]
  by_cases hk : k = key y
  · subst hk
    have hnone : ¬ ∃ x ∈ xs, key x = key y ∧ val x = v := fun ⟨x, hx, hxy, _⟩ => hfree x hx hxy
    simp [hnone]
  · simp only [if_neg hk, h, Ne.symm hk, false_and, or_false]

end Listed

end BoardMarkup.Table
