import BoardMarkup.BBCode.Usage
import BoardMarkup.Proofs.Appearance
import Mathlib.Data.List.Induction

/-! Declarations of tokens joined under their ids. -/
namespace BoardMarkup.BBCode

/-- The options of one declaration, then each new one of later declarations. -/
def joinedOptions (first later : List String) : List String :=
  first ++ (later.filter (· ∉ first)).eraseDups

/-- The token of an id: its first declaration, with what later ones of the same id add. -/
def joined (ts : List Token) (id : String) : Token :=
  match ts.filter (·.id == id) with
  | [] => ⟨id, none, []⟩
  | first :: later => ⟨id, first.param, joinedOptions first.options (later.flatMap (·.options))⟩

theorem addOptions_eq (first later : List String) : addOptions first later = joinedOptions first later := by
  induction later using List.reverseRecOn with
  | nil => simp [addOptions, joinedOptions]
  | append_singleton later o ih =>
    have hmem : o ∈ joinedOptions first later ↔ o ∈ first ∨ o ∈ later := by
      by_cases ho : o ∈ first <;> simp [joinedOptions, List.mem_eraseDups, ho]
    have hfold : addOptions first (later ++ [o]) =
        if o ∈ addOptions first later then addOptions first later else addOptions first later ++ [o] := by
      rw [addOptions, List.foldl_append]
      rfl
    rw [hfold, ih]
    by_cases ho : o ∈ first
    · rw [if_pos (hmem.2 (.inl ho))]
      simp [joinedOptions, ho]
    · have hnew : joinedOptions first (later ++ [o]) =
          first ++ ((later.filter (· ∉ first)).eraseDups ++ if o ∈ later then [] else [o]) := by
        rw [joinedOptions, List.filter_append, List.filter_cons, if_pos (by simpa using ho), List.filter_nil,
          eraseDups_concat]
        simp [ho]
      rw [hnew]
      by_cases hl : o ∈ later
      · rw [if_pos (hmem.2 (.inr hl)), if_pos hl, List.append_nil, joinedOptions]
      · rw [if_neg fun h => (hmem.1 h).elim ho hl, if_neg hl, joinedOptions, List.append_assoc]

theorem joinedOptions_append (first later more : List String) :
    joinedOptions first (later ++ more) = addOptions (joinedOptions first later) more := by
  rw [← addOptions_eq, ← addOptions_eq, addOptions, List.foldl_append]
  rfl

@[simp] theorem joined_id (ts : List Token) (id : String) : (joined ts id).id = id := by
  unfold joined
  split <;> rfl

section Concat

variable {ts : List Token} {t : Token} {id : String}

theorem joined_concat_of_ne (h : id ≠ t.id) : joined (ts ++ [t]) id = joined ts id := by
  have hf : (ts ++ [t]).filter (·.id == id) = ts.filter (·.id == id) := by
    simp [List.filter_append, Ne.symm h]
  rw [joined, joined, hf]

private theorem joined_concat_of_new (h : ∀ u ∈ ts, u.id ≠ t.id) : joined (ts ++ [t]) t.id = t := by
  have hf : (ts ++ [t]).filter (·.id == t.id) = [t] := by
    have hnone : ts.filter (·.id == t.id) = [] := List.filter_eq_nil_iff.2 fun u hu => by simpa using h u hu
    rw [List.filter_append, hnone, List.nil_append, List.filter_cons, if_pos (by simp), List.filter_nil]
  rw [joined, hf]
  simp [joinedOptions]

private theorem joined_concat_of_old {u : Token} (hu : u ∈ ts) (h : u.id = t.id) :
    joined (ts ++ [t]) t.id =
      { joined ts t.id with options := addOptions (joined ts t.id).options t.options } := by
  have hmem : u ∈ ts.filter (·.id == t.id) := List.mem_filter.2 ⟨hu, by simp [h]⟩
  have hf : (ts ++ [t]).filter (·.id == t.id) = ts.filter (·.id == t.id) ++ [t] := by
    rw [List.filter_append, List.filter_cons, if_pos (by simp), List.filter_nil]
  unfold joined
  rw [hf]
  cases hs : ts.filter (·.id == t.id) with
  | nil => rw [hs] at hmem; cases hmem
  | cons first later => simp [joinedOptions_append]

end Concat

/-- Each id has one token, in the order of the first declarations. -/
theorem foldl_addToken_eq (ts : List Token) :
    ts.foldl addToken [] = (ts.map (·.id)).eraseDups.map (joined ts) := by
  induction ts using List.reverseRecOn with
  | nil => rfl
  | append_singleton ts t ih =>
    have hany : ((ts.map (·.id)).eraseDups.map (joined ts)).any (·.id == t.id) = true ↔
        ∃ u ∈ ts, u.id = t.id := by
      simp [List.any_eq_true, List.mem_eraseDups]
    rw [List.foldl_append, ih, List.foldl_cons, List.foldl_nil, addToken, List.map_append, List.map_cons,
      List.map_nil, eraseDups_concat]
    by_cases hold : ∃ u ∈ ts, u.id = t.id
    · obtain ⟨u, hu, hid⟩ := hold
      have hin : t.id ∈ ts.map (·.id) := List.mem_map.2 ⟨u, hu, hid⟩
      rw [if_pos (hany.2 ⟨u, hu, hid⟩), if_pos hin, List.append_nil, List.map_map]
      refine List.map_congr_left fun id _ => ?_
      by_cases he : id = t.id
      · rw [he, joined_concat_of_old hu hid]
        simp
      · rw [joined_concat_of_ne he]
        simp [he]
    · have hin : t.id ∉ ts.map (·.id) := fun hm => hold (by simpa using hm)
      rw [if_neg fun h => hold (hany.1 h), if_neg hin, List.map_append, List.map_cons, List.map_nil,
        joined_concat_of_new fun u hu he => hold ⟨u, hu, he⟩]
      refine congrArg (· ++ [t]) (List.map_congr_left fun id hid => ?_)
      rw [joined_concat_of_ne]
      rintro rfl
      exact hin (List.mem_eraseDups.1 hid)

/-- Joining loses no option, and adds none. -/
theorem mem_options_joined_iff {ts : List Token} {id o : String} :
    o ∈ (joined ts id).options ↔ ∃ t ∈ ts, t.id = id ∧ o ∈ t.options := by
  have hfilter : (∃ t ∈ ts, t.id = id ∧ o ∈ t.options) ↔ ∃ t ∈ ts.filter (·.id == id), o ∈ t.options := by
    simp [and_assoc]
  rw [hfilter, joined]
  cases ts.filter (·.id == id) with
  | nil => simp
  | cons first later =>
    by_cases ho : o ∈ first.options <;> simp [joinedOptions, List.mem_eraseDups, ho]

/-- A token comes from declarations of its id, and has their options. -/
theorem mem_foldl_addToken_iff {ts : List Token} {u : Token} :
    u ∈ ts.foldl addToken [] ↔ (∃ t ∈ ts, t.id = u.id) ∧ u = joined ts u.id := by
  rw [foldl_addToken_eq, List.mem_map]
  constructor
  · rintro ⟨id, hid, rfl⟩
    rw [List.mem_eraseDups, List.mem_map] at hid
    simpa using hid
  · rintro ⟨⟨t, ht, hid⟩, hu⟩
    exact ⟨u.id, List.mem_eraseDups.2 (List.mem_map.2 ⟨t, ht, hid⟩), hu.symm⟩

theorem joined_mem_foldl_addToken {ts : List Token} {t : Token} (h : t ∈ ts) :
    joined ts t.id ∈ ts.foldl addToken [] :=
  mem_foldl_addToken_iff.2 ⟨⟨t, h, by rw [joined_id]⟩, by rw [joined_id]⟩

end BoardMarkup.BBCode
