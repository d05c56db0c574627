import BoardMarkup.Proofs.Style.Selection
import BoardMarkup.Proofs.Style.SwitchMarkup

/-! The templates of several styles in one text, from which each style gets its own. -/
namespace BoardMarkup.Style

namespace Switch

section Ranked

variable {templates : List (StyleId × String)} {w : Switch}

theorem map_ranked_perm (templates : List (StyleId × String)) :
    ((ranked templates).map (·.2)).Perm (templates.map (·.2)).eraseDups := by
  have hvariants : (variants templates).map (·.2) = (templates.map (·.2)).eraseDups := by
    rw [variants, List.map_map]
    exact List.map_id _
  have hperm : (ranked templates).Perm (variants templates) := List.mergeSort_perm _ _
  rw [← hvariants]
  exact hperm.map (·.2)

theorem nodup_ranked (templates : List (StyleId × String)) : ((ranked templates).map (·.2)).Nodup :=
  (map_ranked_perm templates).nodup_iff.2 (nodup_eraseDups _)

/-- The template for all other styles stands in no branch, and no branch has that of another one. -/
theorem nodup_branches (hw : ofTemplates? templates = some w) :
    (∀ b ∈ w.branches, b.2 ≠ w.otherwise) ∧ w.branches.Pairwise (·.2 ≠ ·.2) := by
  obtain ⟨ids, hr⟩ := ofTemplates?_eq_some_iff.1 hw
  have hn := nodup_ranked templates
  rw [hr, List.map_cons, List.nodup_cons] at hn
  exact ⟨fun b hb he => hn.1 (List.mem_map.2 ⟨b, hb, he⟩), List.pairwise_map.1 hn.2⟩

theorem mem_branch_iff (hw : ofTemplates? templates = some w) {b : List StyleId × String}
    (hb : b ∈ w.branches) {id : StyleId} : id ∈ b.1 ↔ (id, b.2) ∈ templates := by
  obtain ⟨ids, hr⟩ := ofTemplates?_eq_some_iff.1 hw
  refine mem_variant_iff (mem_ranked_iff.1 ?_)
  rw [hr]
  exact List.mem_cons_of_mem _ hb

theorem mem_templates_of_mem (hw : ofTemplates? templates = some w) {p : StyleId × String}
    (hp : p ∈ templates) : p.2 = w.otherwise ∨ ∃ b ∈ w.branches, b.2 = p.2 := by
  obtain ⟨ids, hr⟩ := ofTemplates?_eq_some_iff.1 hw
  obtain ⟨own, hv⟩ := exists_variant hp
  rw [← mem_ranked_iff, hr, List.mem_cons] at hv
  rcases hv with hv | hv
  · exact .inl (congrArg Prod.snd hv)
  · exact .inr ⟨(own, p.2), hv, rfl⟩

theorem mem_templates_iff (hw : ofTemplates? templates = some w) {t : String} :
    t ∈ w.templates ↔ ∃ p ∈ templates, p.2 = t := by
  constructor
  · intro ht
    obtain ⟨id, hid⟩ := exists_of_mem_templates hw ht
    exact ⟨(id, t), hid, rfl⟩
  · rintro ⟨p, hp, rfl⟩
    rw [Switch.templates, List.mem_append, List.mem_singleton, List.mem_map]
    exact (mem_templates_of_mem hw hp).symm

/-- There is nothing to choose between just when all styles use one template. -/
theorem branches_eq_nil_iff (hw : ofTemplates? templates = some w) :
    w.branches = [] ↔ ∀ p ∈ templates, p.2 = w.otherwise := by
  constructor
  · intro hb p hp
    rcases mem_templates_of_mem hw hp with h | ⟨b, hm, -⟩
    · exact h
    · rw [hb] at hm
      cases hm
  · intro hall
    rw [List.eq_nil_iff_forall_not_mem]
    intro b hb
    have hb' : b.2 ∈ w.templates := List.mem_append_left _ (List.mem_map_of_mem hb)
    obtain ⟨id, hid⟩ := exists_of_mem_templates hw hb'
    exact (nodup_branches hw).1 b hb (hall _ hid)

end Ranked

end Switch

/-- Styles that use the same template need no switch. -/
theorem merge?_of_common {templates : List (StyleId × String)} (hne : templates ≠ []) {t : String}
    (h : ∀ p ∈ templates, p.2 = t) : merge? templates = some t := by
  cases hw : Switch.ofTemplates? templates with
  | none => exact absurd (Switch.ofTemplates?_eq_none_iff.1 hw) hne
  | some w =>
    obtain ⟨id, hid⟩ := Switch.exists_of_mem_templates hw (t := w.otherwise)
      (List.mem_append_right _ List.mem_cons_self)
    have ht : w.otherwise = t := h _ hid
    have hb : w.branches = [] := (Switch.branches_eq_nil_iff hw).2 fun p hp => (h p hp).trans ht.symm
    rw [merge?, hw, Option.map_some, Switch.render_of_nil hb, ht]

/--
The templates of different styles are merged into one text. If all are equal, it is this template.
Otherwise it is a choice from which each style gets its own: no style is tested in two branches, none
that has the template of all others is tested, and no style is that is not in the list.
-/
theorem merge?_preserves_templates (templates : List (StyleId × String)) (hne : templates ≠ [])
    (hd : (templates.map (·.1)).Nodup) :
    (∀ t, (∀ p ∈ templates, p.2 = t) → merge? templates = some t) ∧
    ((∀ t, ∃ p ∈ templates, p.2 ≠ t) → ∃ (w : Switch) (text : String), merge? templates = some text ∧
      w.branches ≠ [] ∧
      text.toList = chooseText
        (w.branches.map fun b => ((Switch.condition b.1).toList, b.2.toList)) w.otherwise.toList ∧
      (∀ p ∈ templates, w.evaluate p.1 = p.2) ∧
      w.branches.Pairwise (fun a b => ∀ id,
        ¬ (holdsFor id (Switch.condition a.1) ∧ holdsFor id (Switch.condition b.1))) ∧
      (∀ p ∈ templates, p.2 = w.otherwise → ∀ b ∈ w.branches, ¬ holdsFor p.1 (Switch.condition b.1)) ∧
      ∀ b ∈ w.branches, ∀ id, holdsFor id (Switch.condition b.1) → id ∈ templates.map (·.1)) := by
  refine ⟨fun t h => merge?_of_common hne h, fun h => ?_⟩
  cases hw : Switch.ofTemplates? templates with
  | none => exact absurd (Switch.ofTemplates?_eq_none_iff.1 hw) hne
  | some w =>
    have hb : w.branches ≠ [] := by
      intro hb
      obtain ⟨p, hp, hpne⟩ := h w.otherwise
      exact hpne ((Switch.branches_eq_nil_iff hw).1 hb p hp)
    have htested : ∀ b ∈ w.branches, ∀ id,
        holdsFor id (Switch.condition b.1) = true ↔ (id, b.2) ∈ templates := by
      intro b hm id
      rw [holdsFor_condition, List.contains_iff_mem, Switch.mem_branch_iff hw hm]
    have hown : ∀ p ∈ templates, ∀ q ∈ templates, p.1 = q.1 → p.2 = q.2 := fun p hp q hq he =>
      congrArg Prod.snd (List.inj_on_of_nodup_map hd hp hq he)
    refine ⟨w, w.render, by rw [merge?, hw, Option.map_some], hb, Switch.toList_render hb, ?_, ?_, ?_, ?_⟩
    · intro p hp
      rw [Switch.evaluate_eq_select, Switch.select_ofTemplates? hd hw hp]
    · refine List.Pairwise.imp_of_mem ?_ (Switch.nodup_branches hw).2
      rintro a b ha hb hab id ⟨hida, hidb⟩
      exact hab (hown _ ((htested a ha id).1 hida) _ ((htested b hb id).1 hidb) rfl)
    · intro p hp he b hm hid
      exact (Switch.nodup_branches hw).1 b hm
        ((hown _ ((htested b hm p.1).1 hid) p hp rfl).trans he)
    · intro b hm id hid
      exact List.mem_map.2 ⟨_, (htested b hm id).1 hid, rfl⟩

/-- Styles of which two agree, although neither comes first. -/
def fourStyles : List (StyleId × String) := [(1, "C"), (2, "A"), (3, "B"), (4, "A")]

theorem merge?_preserves_fourStyles : fourStyles ≠ [] ∧ (fourStyles.map (·.1)).Nodup ∧
    (∀ t, ∃ p ∈ fourStyles, p.2 ≠ t) ∧ ∃ (w : Switch) (text : String), merge? fourStyles = some text ∧
      w.branches ≠ [] ∧ w.evaluate 1 = "C" ∧ w.evaluate 2 = "A" ∧ w.evaluate 3 = "B" := by
  have hdiffer : ∀ t, ∃ p ∈ fourStyles, p.2 ≠ t := by
    intro t
    by_cases ht : "A" = t
    · exact ⟨(1, "C"), by decide, by rw [← ht]; decide⟩
    · exact ⟨(2, "A"), by decide, ht⟩
  obtain ⟨w, text, hmerge, hbranches, -, hown, -⟩ :=
    (merge?_preserves_templates fourStyles (by decide) (by decide)).2 hdiffer
  exact ⟨by decide, by decide, hdiffer, w, text, hmerge, hbranches, hown (1, "C") (by decide),
    hown (2, "A") (by decide), hown (3, "B") (by decide)⟩

/--
Every directive of the catalog is resolved, in order, to a text in which a switch is written. Evaluated at the
number of a style, this switch gives the style's own template: that of the last source with the number. Items
are active with lists.
-/
theorem resolve_shows_own {ε : Type} (m : MarkerSyntax) (n : Normalizer)
    (check : Directive → String → Except ε Unit) (sources : List Source) :
    (resolve m n check sources).1.map (·.directive) = catalog ∧
      (∀ r ∈ (resolve m n check sources).1, ∃ w : Switch, w.WrittenAs r.template ∧
        ∀ earlier s later, sources = earlier ++ s :: later → (∀ t ∈ later, t.id ≠ s.id) →
          w.evaluate s.id = s.shown m n check r.directive) ∧
      ∀ f : Bitfield, f.isActive "li" = f.isActive "list" := by
  rw [resolve_eq]
  refine ⟨?_, ?_, isActive_li⟩
  · rw [List.map_map]
    exact List.map_id _
  · intro r hr
    obtain ⟨d, hd, rfl⟩ := List.mem_map.1 hr
    refine ⟨switchFor m n check sources d, Switch.writtenAs_render _, ?_⟩
    rintro earlier s later rfl hlater
    exact evaluate_switchFor hd (mem_latest_of_append hlater)

end BoardMarkup.Style
