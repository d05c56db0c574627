import BoardMarkup.Proofs.Text.Cut
import BoardMarkup.Proofs.Text.Find
import BoardMarkup.Text.Replacements
import Mathlib.Data.List.Induction
import Mathlib.Data.List.Nodup

/-! What replacing several texts at once makes of a text: the longest source first, whatever their order. -/
namespace BoardMarkup.Text

namespace Replacements

def Begins (r : String × String) (cs : List Char) : Prop := r.1 ≠ "" ∧ r.1.toList <+: cs

/--
The pair that counts at the start of a text: none has a longer source there, and none before it the
same.
-/
structure Decides (pairs : List (String × String)) (cs : List Char) (r : String × String) : Prop where
  begins : Begins r cs
  longest : ∀ s ∈ pairs, Begins s cs → s.1.utf8ByteSize ≤ r.1.utf8ByteSize
  first : pairs.find? (·.1 == r.1) = some r

/--
A text, and what becomes of it from left to right: a source that begins it goes as a whole, else a
character stays.
-/
inductive Rewritten (pairs : List (String × String)) : List Char → List Char → Prop
  | nil : Rewritten pairs [] []
  | keep {c : Char} {cs result : List Char} (h : ∀ r ∈ pairs, ¬ Begins r (c :: cs)) :
      Rewritten pairs cs result → Rewritten pairs (c :: cs) (c :: result)
  | replace {r : String × String} {rest result : List Char} (h : Decides pairs (r.1.toList ++ rest) r) :
      Rewritten pairs rest result → Rewritten pairs (r.1.toList ++ rest) (r.2.toList ++ result)

section Items

variable {pairs : List (String × String)} {r : String × String}

/-- A pair comes before those with shorter sources and behind all others. -/
theorem exists_insertItem (r : String × String) {items : List (String × String)}
    (h : items.Pairwise (fun r s => s.1.utf8ByteSize ≤ r.1.utf8ByteSize)) :
    ∃ front back, items = front ++ back ∧ insertItem r items = front ++ r :: back ∧
      ∀ s ∈ back, s.1.utf8ByteSize < r.1.utf8ByteSize := by
  induction items with
  | nil => exact ⟨[], [], rfl, rfl, by simp⟩
  | cons s items ih =>
    obtain ⟨hs, hitems⟩ := List.pairwise_cons.1 h
    rw [insertItem]
    split
    · obtain ⟨front, back, rfl, hinsert, hback⟩ := ih hitems
      exact ⟨s :: front, back, rfl, by rw [hinsert, List.cons_append], hback⟩
    · next hlt =>
      refine ⟨[], s :: items, rfl, rfl, fun t ht => ?_⟩
      rcases List.mem_cons.1 ht with rfl | ht
      · omega
      · have := hs t ht
        omega

theorem filter_insertItem (r : String × String) (source : String) {items : List (String × String)}
    (h : items.Pairwise (fun r s => s.1.utf8ByteSize ≤ r.1.utf8ByteSize)) :
    (insertItem r items).filter (·.1 == source) = (items ++ [r]).filter (·.1 == source) := by
  obtain ⟨front, back, rfl, hinsert, hback⟩ := exists_insertItem r h
  rw [hinsert]
  by_cases hr : r.1 = source
  · have hnone : back.filter (·.1 == source) = [] := by
      rw [List.filter_eq_nil_iff]
      intro s hs he
      have hlt := hback s hs
      rw [beq_iff_eq.1 he, hr] at hlt
      exact Nat.lt_irrefl _ hlt
    simp [hr, hnone]
  · simp [hr]

theorem ofList_concat (pairs : List (String × String)) (r : String × String) :
    ofList (pairs ++ [r]) = (ofList pairs).add r.1 r.2 := by
  simp only [ofList, List.foldl_append, List.foldl_cons, List.foldl_nil]

theorem items_add (rs : Replacements) {source : String} (h : source ≠ "") (target : String) :
    (rs.add source target).items = insertItem (source, target) rs.items := by
  rw [add, dif_neg h]

theorem mem_items_ofList : r ∈ (ofList pairs).items ↔ r ∈ pairs ∧ r.1 ≠ "" := by
  induction pairs using List.reverseRecOn with
  | nil => simp [ofList, empty]
  | append_singleton pairs s ih =>
    rw [ofList_concat]
    by_cases hs : s.1 = ""
    · rw [add, dif_pos hs, ih]
      grind
    · rw [items_add _ hs, mem_insertItem, ih]
      grind

/-- Pairs with one source keep the order in which they are added. -/
theorem filter_items_ofList (pairs : List (String × String)) {source : String} (h : source ≠ "") :
    (ofList pairs).items.filter (·.1 == source) = pairs.filter (·.1 == source) := by
  induction pairs using List.reverseRecOn with
  | nil => rfl
  | append_singleton pairs s ih =>
    rw [ofList_concat, List.filter_append, ← ih]
    by_cases hs : s.1 = ""
    · have hne : (s.1 == source) = false := by simpa [hs] using h.symm
      rw [add, dif_pos hs, List.filter_cons_of_neg (by simp [hne]), List.filter_nil, List.append_nil]
    · rw [items_add _ hs, filter_insertItem _ _ (ofList pairs).descending, List.filter_append]

theorem find?_items_ofList (pairs : List (String × String)) {source : String} (h : source ≠ "") :
    (ofList pairs).items.find? (·.1 == source) = pairs.find? (·.1 == source) := by
  rw [← List.head?_filter, filter_items_ofList pairs h, List.head?_filter]

end Items

section Decides

variable {pairs : List (String × String)} {cs : List Char} {r s : String × String}

theorem eq_of_start_of_size {s t : String} (h : s.toList <+: t.toList)
    (hsize : t.utf8ByteSize ≤ s.utf8ByteSize) :
    s = t := by
  obtain ⟨rest, hrest⟩ := h
  have ht : t = s ++ String.ofList rest := by
    rw [← String.toList_inj, String.toList_append, String.toList_ofList, hrest]
  rw [ht, String.utf8ByteSize_append] at hsize
  have hempty : String.ofList rest = "" := String.utf8ByteSize_eq_zero_iff.1 (by omega)
  rw [ht, hempty, String.append_empty]

private theorem source_eq_of_begins (hr : Begins r cs) (hs : Begins s cs)
    (h : r.1.utf8ByteSize = s.1.utf8ByteSize) :
    r.1 = s.1 := by
  rcases List.prefix_or_prefix_of_prefix hr.2 hs.2 with hp | hp
  · exact eq_of_start_of_size hp (Nat.le_of_eq h.symm)
  · exact (eq_of_start_of_size hp (Nat.le_of_eq h)).symm

theorem Decides.mem (h : Decides pairs cs r) : r ∈ pairs := List.mem_of_find?_eq_some h.first

theorem Decides.unique (hr : Decides pairs cs r) (hs : Decides pairs cs s) : r = s := by
  have hsize : r.1.utf8ByteSize = s.1.utf8ByteSize :=
    Nat.le_antisymm (hs.longest r hr.mem hr.begins) (hr.longest s hs.mem hs.begins)
  have hfirst := hr.first
  rw [source_eq_of_begins hr.begins hs.begins hsize, hs.first] at hfirst
  exact (Option.some.inj hfirst).symm

def begun? (pairs : List (String × String)) (cs : List Char) : Option (String × String) :=
  (ofList pairs).items.find? fun r => (after? r.1.toList cs).isSome

theorem begun?_eq_none_iff : begun? pairs cs = none ↔ ∀ r ∈ pairs, ¬ Begins r cs := by
  rw [begun?, List.find?_eq_none]
  simp only [after?_isSome_iff, mem_items_ofList]
  exact ⟨fun h r hr hb => h r ⟨hr, hb.1⟩ hb.2, fun h r hr hb => h r hr.1 ⟨hr.2, hb⟩⟩

theorem decides_of_begun? (h : begun? pairs cs = some r) : Decides pairs cs r := by
  obtain ⟨hbegins, front, back, hitems, hfront⟩ := List.find?_eq_some_iff_append.1 h
  have hmem : r ∈ (ofList pairs).items := by simp [hitems]
  have hbehind : ∀ s ∈ front, ¬ s.1.toList <+: cs := fun s hs hp => by
    simpa [after?_isSome_iff.2 hp] using hfront s hs
  refine ⟨⟨(mem_items_ofList.1 hmem).2, after?_isSome_iff.1 hbegins⟩, fun s hs hb => ?_, ?_⟩
  · have hsorted := (ofList pairs).descending
    have hsmem : s ∈ (ofList pairs).items := mem_items_ofList.2 ⟨hs, hb.1⟩
    rw [hitems] at hsorted hsmem
    rcases List.mem_append.1 hsmem with hs | hs
    · exact absurd hb.2 (hbehind s hs)
    · rcases List.mem_cons.1 hs with rfl | hs
      · exact Nat.le_refl _
      · exact (List.pairwise_cons.1 (List.pairwise_append.1 hsorted).2.1).1 s hs
  · rw [← find?_items_ofList pairs (mem_items_ofList.1 hmem).2, hitems, List.find?_append]
    have hnone : front.find? (·.1 == r.1) = none := by
      rw [List.find?_eq_none]
      intro s hs he
      rw [beq_iff_eq] at he
      exact hbehind s hs (he ▸ after?_isSome_iff.1 hbegins)
    simp [hnone]

theorem begun?_eq_some_iff : begun? pairs cs = some r ↔ Decides pairs cs r := by
  refine ⟨decides_of_begun?, fun h => ?_⟩
  cases hb : begun? pairs cs with
  | none => exact absurd h.begins (begun?_eq_none_iff.1 hb r h.mem)
  | some s => rw [(decides_of_begun? hb).unique h]

theorem finder_contextFree (rs : Replacements) : rs.finder.ContextFree := fun _ _ _ => rfl

theorem finder_eq (pairs : List (String × String)) (before cs : List Char) :
    (ofList pairs).finder before cs = (begun? pairs cs).map fun r => (r.2, r.1.length) := rfl

private theorem replaceAll_of_decides {rest : List Char} (h : Decides pairs (r.1.toList ++ rest) r) :
    replaceAll (ofList pairs).finder String.toList (r.1.toList ++ rest) =
      r.2.toList ++ replaceAll (ofList pairs).finder String.toList rest := by
  have hfound : (ofList pairs).finder [] (r.1.toList ++ rest) = some (r.2, r.1.toList.length) := by
    rw [finder_eq, begun?_eq_some_iff.2 h, Option.map_some, String.length_toList]
  have hne : r.1.toList ≠ [] := fun he => h.begins.1 (String.toList_eq_nil_iff.1 he)
  exact replaceAll_append_of_some (finder_contextFree _) _ hne hfound

end Decides

section Rewritten

variable {pairs other : List (String × String)} {cs result : List Char}

theorem Rewritten.replaceAll_eq (h : Rewritten pairs cs result) :
    replaceAll (ofList pairs).finder String.toList cs = result := by
  induction h with
  | nil => rfl
  | keep hnone _ ih =>
    rw [replaceAll_cons_of_none (finder_contextFree _)
      (by rw [finder_eq, begun?_eq_none_iff.2 hnone]; rfl), ih]
  | replace hdecides _ ih => rw [replaceAll_of_decides hdecides, ih]

private theorem exists_rewritten (pairs : List (String × String)) (cs : List Char) :
    ∃ result, Rewritten pairs cs result := by
  induction hn : cs.length using Nat.strongRecOn generalizing cs with
  | ind n ih =>
    cases cs with
    | nil => exact ⟨[], .nil⟩
    | cons c cs =>
      cases hb : begun? pairs (c :: cs) with
      | none =>
        obtain ⟨result, hresult⟩ := ih cs.length (by simp [← hn]) cs rfl
        exact ⟨c :: result, .keep (begun?_eq_none_iff.1 hb) hresult⟩
      | some r =>
        have hdecides := decides_of_begun? hb
        obtain ⟨rest, hrest⟩ := hdecides.begins.2
        have hpos : 0 < r.1.toList.length :=
          List.length_pos_iff.2 fun he => hdecides.begins.1 (String.toList_eq_nil_iff.1 he)
        have hlength : r.1.toList.length + rest.length = n := by rw [← hn, ← hrest, List.length_append]
        obtain ⟨result, hresult⟩ := ih rest.length (by omega) rest rfl
        rw [← hrest] at hdecides ⊢
        exact ⟨r.2.toList ++ result, .replace hdecides hresult⟩

private theorem replaceAll_eq_iff : replaceAll (ofList pairs).finder String.toList cs = result ↔
    Rewritten pairs cs result := by
  refine ⟨?_, Rewritten.replaceAll_eq⟩
  rintro rfl
  obtain ⟨result, h⟩ := exists_rewritten pairs cs
  rwa [h.replaceAll_eq]

theorem apply_eq_iff {s t : String} : (ofList pairs).apply s = t ↔ Rewritten pairs s.toList t.toList := by
  rw [← replaceAll_eq_iff, ← String.toList_inj, apply, String.toList_ofList]

/-- Among different sources no order is needed to tell which counts. -/
theorem Decides.perm {r : String × String} (h : Decides pairs cs r) (hp : pairs.Perm other)
    (hn : (pairs.map (·.1)).Nodup) : Decides other cs r := by
  refine ⟨h.begins, fun s hs => h.longest s (hp.mem_iff.2 hs), ?_⟩
  cases hf : other.find? (·.1 == r.1) with
  | none => exact absurd (beq_self_eq_true r.1) (List.find?_eq_none.1 hf r (hp.mem_iff.1 h.mem))
  | some s =>
    have hs : s ∈ pairs := hp.mem_iff.2 (List.mem_of_find?_eq_some hf)
    have hsource : s.1 = r.1 := by simpa using List.find?_some hf
    rw [List.inj_on_of_nodup_map hn hs h.mem hsource]

theorem Rewritten.perm (h : Rewritten pairs cs result) (hp : pairs.Perm other)
    (hn : (pairs.map (·.1)).Nodup) : Rewritten other cs result := by
  induction h with
  | nil => exact .nil
  | keep hnone _ ih => exact .keep (fun r hr => hnone r (hp.mem_iff.2 hr)) ih
  | replace hdecides _ ih => exact .replace (hdecides.perm hp hn) ih

end Rewritten

/--
From left to right the longest source that begins the rest of a text is replaced by the target it was
first given, and a character stays where no source begins. Pairs with different sources may be added in
any order.
-/
theorem replaces_longest_first :
    (∀ (pairs : List (String × String)) (s t : String),
      (ofList pairs).apply s = t ↔ Rewritten pairs s.toList t.toList) ∧
    ∀ pairs other : List (String × String), pairs.Perm other → (pairs.map (·.1)).Nodup →
      ∀ s, (ofList pairs).apply s = (ofList other).apply s := by
  refine ⟨fun pairs s t => apply_eq_iff, fun pairs other hp hn s => ?_⟩
  exact (apply_eq_iff.2 ((apply_eq_iff.1 rfl).perm hp hn)).symm

/-- A token, its start, and a brace, in an order in which the shorter sources come first. -/
def nestedSources : List (String × String) :=
  [("\x7b", "("), ("\x7bURL", "x"), ("\x7bURL\x7d", "\x7bIMAGEURL\x7d")]

theorem replaces_longest_first_nested : nestedSources.Perm nestedSources.reverse ∧
    (nestedSources.map (·.1)).Nodup ∧
    (ofList nestedSources).apply "\x7bURL\x7d\x7bURL\x7b" = "\x7bIMAGEURL\x7dx(" ∧
    (ofList nestedSources.reverse).apply "\x7bURL\x7d\x7bURL\x7b" = "\x7bIMAGEURL\x7dx(" := by
  have hperm : nestedSources.Perm nestedSources.reverse := (List.reverse_perm _).symm
  have hnodup : (nestedSources.map (·.1)).Nodup := by decide
  have hsame := replaces_longest_first.2 _ _ hperm hnodup "\x7bURL\x7d\x7bURL\x7b"
  have hvalue : (ofList nestedSources).apply "\x7bURL\x7d\x7bURL\x7b" = "\x7bIMAGEURL\x7dx(" := by
    decide +kernel
  exact ⟨hperm, hnodup, hvalue, hsame.symm.trans hvalue⟩

end Replacements
end BoardMarkup.Text
