import BoardMarkup.Proofs.Style.Merging

/-! The order of templates in a merged text: by how many styles use them, then by first appearance. -/
namespace BoardMarkup.Style

def users (templates : List (StyleId × String)) (t : String) : List StyleId :=
  (templates.filter (·.2 == t)).map (·.1)

/-- Whether one template goes before another: more styles use it, or as many and it appears first. -/
def Outranks (templates : List (StyleId × String)) (t u : String) : Prop :=
  (users templates u).length < (users templates t).length ∨
    (users templates t).length = (users templates u).length ∧
      (templates.map (·.2)).idxOf t < (templates.map (·.2)).idxOf u

instance (templates : List (StyleId × String)) (t u : String) : Decidable (Outranks templates t u) :=
  inferInstanceAs (Decidable (_ ∨ _))

/-- Templates have one order of rank only. -/
theorem eq_of_outranks {templates : List (StyleId × String)} {ts us : List String}
    (ht : ts.Pairwise (Outranks templates)) (hu : us.Pairwise (Outranks templates))
    (h : ∀ t, t ∈ ts ↔ t ∈ us) : ts = us := by
  have hasymm : ∀ t u, Outranks templates t u → ¬ Outranks templates u t := by
    intro t u htu hut
    unfold Outranks at htu hut
    omega
  have hnodup : ∀ {ts : List String}, ts.Pairwise (Outranks templates) → ts.Nodup := by
    intro ts ht
    apply ht.imp
    intro t u htu he
    rw [he] at htu
    exact hasymm u u htu htu
  have hperm : ts.Perm us := (List.perm_ext_iff_of_nodup (hnodup ht) (hnodup hu)).2 h
  exact hperm.eq_of_pairwise (fun t u _ _ htu hut => absurd hut (hasymm t u htu)) ht hu

namespace Switch

section Ranked

variable {templates : List (StyleId × String)} {b : List StyleId × String} {t : String}

theorem variants_eq (templates : List (StyleId × String)) : variants templates =
    (templates.map (·.2)).eraseDups.map fun t => (users templates t, t) := rfl

theorem pairwise_variants (templates : List (StyleId × String)) :
    (variants templates).Pairwise fun a b =>
      (templates.map (·.2)).idxOf a.2 < (templates.map (·.2)).idxOf b.2 := by
  rw [variants_eq, List.pairwise_map]
  exact pairwise_eraseDups _

theorem nodup_variants (templates : List (StyleId × String)) : (variants templates).Nodup := by
  apply (pairwise_variants templates).imp
  intro a b h he
  rw [he] at h
  exact Nat.lt_irrefl _ h

theorem users_of_mem_ranked (h : b ∈ ranked templates) : b.1 = users templates b.2 := by
  rw [mem_ranked_iff, variants_eq] at h
  obtain ⟨t, -, rfl⟩ := List.mem_map.1 h
  rfl

private theorem mem_map_ranked_iff : t ∈ (ranked templates).map (·.2) ↔ ∃ p ∈ templates, p.2 = t := by
  rw [(map_ranked_perm templates).mem_iff, List.mem_eraseDups, List.mem_map]

/-- The sort by number of styles leaves templates that as many use in the order of first appearance. -/
theorem pairwise_ranked (templates : List (StyleId × String)) :
    (ranked templates).Pairwise fun a b => Outranks templates a.2 b.2 := by
  have hsorted := pairwise_mergeSort_keep (fun a b => decide (b.1.length ≤ a.1.length))
    (fun a b c hab hbc => by
      simp only [decide_eq_true_eq] at hab hbc ⊢
      omega)
    (fun a b => by
      simp only [Bool.or_eq_true, decide_eq_true_eq]
      omega)
    (nodup_variants templates) (pairwise_variants templates)
  refine List.Pairwise.imp_of_mem ?_ hsorted
  intro a b ha hb h
  rw [Outranks, ← users_of_mem_ranked ha, ← users_of_mem_ranked hb]
  simp only [decide_eq_true_eq] at h
  by_cases hle : a.1.length ≤ b.1.length
  · exact .inr ⟨Nat.le_antisymm hle h.1, h.2 hle⟩
  · exact .inl (Nat.lt_of_not_le hle)

end Ranked

end Switch

/--
Of different templates that styles use the one that outranks all others is shown where no condition
holds. Each other one has one branch, in the order of rank, whose condition tests the styles that use it
in the order of the list.
-/
theorem merge?_ranks_templates (templates : List (StyleId × String))
    (h : ∃ p ∈ templates, ∃ q ∈ templates, p.2 ≠ q.2) :
    ∃ (text most : String) (others : List String), merge? templates = some text ∧
      text.toList = chooseText (others.map fun t =>
        (orMark.intercalate ((users templates t).map testText), t.toList)) most.toList ∧
      (∀ t, t ∈ most :: others ↔ ∃ p ∈ templates, p.2 = t) ∧
      (most :: others).Nodup ∧ (most :: others).Pairwise (Outranks templates) := by
  obtain ⟨p, hp, q, hq, hpq⟩ := h
  cases hw : Switch.ofTemplates? templates with
  | none =>
    rw [Switch.ofTemplates?_eq_none_iff.1 hw] at hp
    cases hp
  | some w =>
    obtain ⟨ids, hr⟩ := Switch.ofTemplates?_eq_some_iff.1 hw
    have hlist : (Switch.ranked templates).map (·.2) = w.otherwise :: w.branches.map (·.2) := by
      rw [hr, List.map_cons]
    have hb : w.branches ≠ [] := by
      intro hb
      have hall := (Switch.branches_eq_nil_iff hw).1 hb
      exact hpq ((hall p hp).trans (hall q hq).symm)
    have hbranches : (w.branches.map fun b => ((Switch.condition b.1).toList, b.2.toList)) =
        (w.branches.map (·.2)).map fun t =>
          (orMark.intercalate ((users templates t).map testText), t.toList) := by
      rw [List.map_map]
      apply List.map_congr_left
      intro b hm
      have hranked : b ∈ Switch.ranked templates := by
        rw [hr]
        exact List.mem_cons_of_mem _ hm
      rw [toList_condition, Switch.users_of_mem_ranked hranked]
      rfl
    refine ⟨w.render, w.otherwise, w.branches.map (·.2), by rw [merge?, hw, Option.map_some], ?_, ?_, ?_, ?_⟩
    · rw [Switch.toList_render hb, hbranches]
    · intro t
      rw [← hlist, Switch.mem_map_ranked_iff]
    · rw [← hlist]
      exact Switch.nodup_ranked templates
    · rw [← hlist, List.pairwise_map]
      exact Switch.pairwise_ranked templates

def sevenStyles : List (StyleId × String) :=
  [(1, "C"), (2, "A"), (3, "B"), (4, "A"), (5, "B"), (6, "A"), (7, "D")]

theorem merge?_ranks_sevenStyles : (∃ p ∈ sevenStyles, ∃ q ∈ sevenStyles, p.2 ≠ q.2) ∧
    users sevenStyles "B" = [3, 5] ∧ ∃ text : String, merge? sevenStyles = some text ∧
      text.toList = chooseText (["B", "C", "D"].map fun t =>
        (orMark.intercalate ((users sevenStyles t).map testText), t.toList)) ['A'] := by
  have hdiffer : ∃ p ∈ sevenStyles, ∃ q ∈ sevenStyles, p.2 ≠ q.2 :=
    ⟨(1, "C"), by decide, (2, "A"), by decide, by decide⟩
  obtain ⟨text, most, others, hmerge, htext, hmem, -, hrank⟩ := merge?_ranks_templates sevenStyles hdiffer
  have hexpected : ["A", "B", "C", "D"].Pairwise (Outranks sevenStyles) := by decide
  have horder : most :: others = ["A", "B", "C", "D"] := by
    apply eq_of_outranks hrank hexpected
    intro t
    have hused : sevenStyles.map (·.2) = ["C", "A", "B", "A", "B", "A", "D"] := rfl
    rw [hmem, ← List.mem_map, hused]
    grind
  obtain ⟨rfl, rfl⟩ := List.cons.inj horder
  exact ⟨hdiffer, by decide, text, hmerge, htext⟩

end BoardMarkup.Style
