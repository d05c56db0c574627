import BoardMarkup.Board.Entity
import BoardMarkup.Proofs.Text.Cut
import BoardMarkup.Proofs.Text.Find
import Mathlib.Tactic.SplitIfs

/-! Reserved characters are written as entities, and read back as they were. -/
namespace BoardMarkup.Board

open Text

def reserved : List Char := ['&', '"', '\'', '<', '>']

theorem escapeChar_of_notMem {c : Char} (h : c ∉ reserved) : escapeChar c = [c] := by
  simp only [reserved, List.mem_cons, List.not_mem_nil, or_false, not_or] at h
  simp [escapeChar, h]

theorem escapeChar_ne_nil (c : Char) : escapeChar c ≠ [] := by
  unfold escapeChar
  split_ifs <;> simp

/-- Of the reserved characters only the one that begins an entity is ever written. -/
theorem notMem_escapeChar {d : Char} (hd : d ∈ reserved) (hne : d ≠ '&') (c : Char) : d ∉ escapeChar c := by
  have hentities :
      (reserved.all fun c => reserved.all fun d => decide (d = '&' ∨ d ∉ escapeChar c)) = true := by
    decide
  simp only [List.all_eq_true, decide_eq_true_eq] at hentities
  by_cases hc : c ∈ reserved
  · exact (hentities c hc d hd).resolve_left hne
  · rw [escapeChar_of_notMem hc, List.mem_singleton]
    rintro rfl
    exact hc hd

theorem notMem_escapeHtml {d : Char} (hd : d ∈ reserved) (hne : d ≠ '&') (s : String) :
    d ∉ (escapeHtml s).toList := by
  rw [escapeHtml, String.toList_ofList, List.mem_flatMap]
  rintro ⟨c, -, hc⟩
  exact notMem_escapeChar hd hne c hc

theorem quote_notMem_escapeHtml (s : String) : '"' ∉ (escapeHtml s).toList :=
  notMem_escapeHtml (by decide) (by decide) s

/-- What is written for a character has an ampersand only at its start, where that begins an entity. -/
theorem escapeChar_eq_append_ampersand {c : Char} {before rest : List Char}
    (h : escapeChar c = before ++ '&' :: rest) : before = [] ∧ c ∈ reserved := by
  by_cases hc : c ∈ reserved
  · have htails : (reserved.all fun c => decide ('&' ∉ (escapeChar c).tail)) = true := by decide
    simp only [List.all_eq_true, decide_eq_true_eq] at htails
    cases before with
    | nil => exact ⟨rfl, hc⟩
    | cons b before =>
      refine absurd ?_ (htails c hc)
      rw [h]
      simp
  · rw [escapeChar_of_notMem hc] at h
    cases before with
    | nil =>
      obtain ⟨rfl, -⟩ := List.cons.inj h
      exact absurd (by decide) hc
    | cons b before => simp at h

/-- So each ampersand of a written text begins an entity. -/
theorem exists_entity_of_ampersand {cs rest : List Char} (h : '&' :: rest <:+ cs.flatMap escapeChar) :
    ∃ c ∈ reserved, escapeChar c <+: '&' :: rest := by
  induction cs with
  | nil => simp at h
  | cons c cs ih =>
    obtain ⟨before, h⟩ := h
    rw [List.flatMap_cons] at h
    -- the ampersand stands in what was written for this character, or behind it
    rcases List.append_eq_append_iff.1 h with ⟨mid, hc, hrest⟩ | ⟨mid, -, hlater⟩
    · cases mid with
      | nil => exact ih ⟨[], hrest⟩
      | cons m mid =>
        obtain ⟨rfl, hrest⟩ := List.cons.inj hrest
        obtain ⟨rfl, hreserved⟩ := escapeChar_eq_append_ampersand hc
        exact ⟨c, hreserved, cs.flatMap escapeChar, by rw [hc, hrest]; rfl⟩
    · exact ih ⟨mid, hlater.symm⟩

theorem entity_contextFree : entity.ContextFree := fun _ _ _ => rfl

/-- What is written for a reserved character is read as that character, whatever stands behind it. -/
theorem entity_escapeChar {c : Char} (h : c ∈ reserved) (rest : List Char) :
    entity [] (escapeChar c ++ rest) = some (c, (escapeChar c).length) := by
  simp only [reserved, List.mem_cons, List.not_mem_nil, or_false] at h
  rcases h with rfl | rfl | rfl | rfl | rfl <;> simp [entity, entities, escapeChar, after?]

theorem entity_eq_none {c : Char} (h : c ≠ '&') (cs : List Char) : entity [] (c :: cs) = none := by
  have hhead : ∀ e ∈ entities, e.1.head? = some '&' := by decide
  rw [entity, Option.map_eq_none_iff, List.find?_eq_none]
  intro e he
  obtain ⟨rest, hrest⟩ := List.head?_eq_some_iff.1 (hhead e he)
  rw [hrest, after?_eq_none_of_head h.symm]
  simp

/-- A character is read back from what was written for it, and reading goes on behind that. -/
theorem replaceAll_escapeChar_append (c : Char) (rest : List Char) :
    replaceAll entity ([·]) (escapeChar c ++ rest) = c :: replaceAll entity ([·]) rest := by
  by_cases hc : c ∈ reserved
  · exact replaceAll_append_of_some entity_contextFree _ (escapeChar_ne_nil c) (entity_escapeChar hc rest)
  · have hne : c ≠ '&' := fun he => hc (he ▸ List.mem_cons_self)
    rw [escapeChar_of_notMem hc]
    exact replaceAll_cons_of_none entity_contextFree (entity_eq_none hne rest)

theorem unescapeHtml_escapeHtml (s : String) : unescapeHtml (escapeHtml s) = s := by
  have hread : ∀ cs : List Char, replaceAll entity ([·]) (cs.flatMap escapeChar) = cs := by
    intro cs
    induction cs with
    | nil => rfl
    | cons c cs ih => rw [List.flatMap_cons, replaceAll_escapeChar_append, ih]
  rw [unescapeHtml, escapeHtml, String.toList_ofList, hread, String.ofList_toList]

/-- Text before the first ampersand stays as it is. -/
theorem unescapeHtml_append {text : String} (h : '&' ∉ text.toList) (s : String) :
    unescapeHtml (text ++ s) = text ++ unescapeHtml s := by
  have hplain : ∀ c ∈ text.toList, ∀ cs, entity [] (c :: cs) = none := fun c hc cs =>
    entity_eq_none (fun he => h (he ▸ hc)) cs
  rw [unescapeHtml, String.toList_append, replaceAll_append_of_none entity_contextFree _ hplain,
    String.ofList_append, String.ofList_toList, ← unescapeHtml]

theorem unescapeHtml_eq_self {s : String} (h : '&' ∉ s.toList) : unescapeHtml s = s := by
  have hread := unescapeHtml_append h ""
  have hempty : unescapeHtml "" = "" := by decide
  rwa [hempty, String.append_empty] at hread

/--
A text with its reserved characters written as entities is read back as it was, also where it holds
entities itself. What is written has no brackets and quotes, and each ampersand in it begins one of the
five entities.
-/
theorem escaped_text_restored (s : String) :
    unescapeHtml (escapeHtml s) = s ∧
    (∀ c ∈ ['<', '>', '"', '\''], c ∉ (escapeHtml s).toList) ∧
    ∀ rest, '&' :: rest <:+ (escapeHtml s).toList →
      ∃ e ∈ ["&amp;", "&quot;", "&#039;", "&lt;", "&gt;"], e.toList <+: '&' :: rest := by
  refine ⟨unescapeHtml_escapeHtml s, fun c hc => ?_, fun rest h => ?_⟩
  · have hreserved : (['<', '>', '"', '\''].all fun c => decide (c ∈ reserved ∧ c ≠ '&')) = true := by decide
    simp only [List.all_eq_true, decide_eq_true_eq] at hreserved
    obtain ⟨hmem, hne⟩ := hreserved c hc
    exact notMem_escapeHtml hmem hne s
  · rw [escapeHtml, String.toList_ofList] at h
    obtain ⟨c, hc, hentity⟩ := exists_entity_of_ampersand h
    have hwritten : reserved.map (fun c => String.ofList (escapeChar c)) =
        ["&amp;", "&quot;", "&#039;", "&lt;", "&gt;"] := by decide
    refine ⟨String.ofList (escapeChar c), hwritten ▸ List.mem_map_of_mem hc, ?_⟩
    rwa [String.toList_ofList]

end BoardMarkup.Board
