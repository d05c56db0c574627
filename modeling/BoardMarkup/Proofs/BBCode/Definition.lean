import BoardMarkup.Proofs.BBCode.Tokens
import BoardMarkup.Proofs.Style.BraceFinder

/-! When a template suits a usage, also one that switches between templates that do. -/
namespace BoardMarkup.BBCode

open Markup Style Text

private theorem braceFinder_placeholder : BraceFinder placeholder where
  contextFree := placeholder_contextFree
  starts := fun _ => placeholder_eq_none
  stops := placeholder_append_cons (by decide) (by decide) (by decide)
  fits := placeholder_fits

theorem tokensOf_of_chooseText {t : String} {branches : List (List Char × String)} {otherwise : String}
    (h : t.toList = chooseText (branches.map fun b => (b.1, b.2.toList)) otherwise.toList)
    (hb : ∀ b ∈ branches, '{' ∉ b.1) : tokensOf t = (branches.map (·.2) ++ [otherwise]).flatMap tokensOf := by
  rw [tokensOf, h, braceFinder_placeholder.findAll_chooseText (List.forall_mem_map.2 hb)]
  simp only [List.map_map, List.map_append, List.map_flatMap, List.flatMap_append, List.flatMap_map,
    List.flatMap_singleton]
  rfl

/-- The tokens of a switch are those of its templates. -/
theorem tokensOf_render (s : Switch) : tokensOf s.render = s.templates.flatMap tokensOf := by
  by_cases hb : s.branches = []
  · rw [Switch.render_of_nil hb, Switch.templates, hb, List.map_nil, List.nil_append, List.flatMap_singleton]
  · have htext : s.render.toList = chooseText
        ((s.branches.map fun b => ((Switch.condition b.1).toList, b.2)).map fun b => (b.1, b.2.toList))
        s.otherwise.toList := by
      rw [Switch.toList_render hb, List.map_map]
      rfl
    rw [tokensOf_of_chooseText htext (List.forall_mem_map.2 fun b _ => brace_notMem_condition b.1),
      List.map_map]
    rfl

/-- Whether a usage or the language of the reader provides for all tokens of a template. -/
def Provides (u : Usage) (template : String) : Prop :=
  ∀ id ∈ tokensOf template, isLanguageToken id ∨ u.defines id

theorem validate_of_provides {t : Template} {u : Usage} (h : Provides u t.source) :
    t.validate u =
      match Markup.check t.checked t.source with
      | .ok () => .ok ()
      | .error (.fault f) => .error (.malformedTemplate u.name f)
      | .error (.hazard z) => .error (.hazardousTemplate u.name z) := by
  have hf : (tokensOf t.source).find? (fun id => !isLanguageToken id && !u.defines id) = none := by
    rw [List.find?_eq_none]
    intro id hid
    rcases h id hid with h | h <;> simp [h]
  cases hc : Markup.check t.checked t.source with
  | ok _ => simp only [Template.validate, hf, hc]
  | error p => cases p <;> simp only [Template.validate, hf, hc]

/-- Just a token that nobody provides for is undefined. -/
theorem provides_iff {t : Template} {u : Usage} :
    Provides u t.source ↔ ∀ name id, t.validate u ≠ .error (.undefinedToken name id) := by
  constructor
  · intro h name id
    rw [validate_of_provides h]
    split <;> simp
  · intro h id hid
    cases hf : (tokensOf t.source).find? fun id => !isLanguageToken id && !u.defines id with
    | none => simpa [Classical.or_iff_not_imp_left] using List.find?_eq_none.1 hf id hid
    | some missing => exact absurd (by simp only [Template.validate, hf]) (h u.name missing)

theorem validate_eq_ok_iff {t : Template} {u : Usage} :
    t.validate u = .ok () ↔ Provides u t.source ∧ Markup.check t.checked t.source = .ok () := by
  constructor
  · intro h
    have hp : Provides u t.source := by
      refine provides_iff.2 fun name id he => ?_
      rw [h] at he
      cases he
    refine ⟨hp, ?_⟩
    rw [validate_of_provides hp] at h
    split at h
    · assumption
    · cases h
    · cases h
  · rintro ⟨hp, hc⟩
    rw [validate_of_provides hp, hc]

/-- Whether the templates of a switch can stand side by side in one text. -/
def Mergeable (checked : Bool) (s : Switch) : Prop :=
  s.branches = [] ∨ ∀ t ∈ s.templates, SelfContained checked t.toList

section Render

variable {checked : Bool} {s : Switch} {u : Usage}

theorem provides_render_iff : Provides u s.render ↔ ∀ t ∈ s.templates, Provides u t := by
  simp only [Provides, tokensOf_render, List.mem_flatMap]
  constructor
  · exact fun h t ht id hid => h id ⟨t, ht, hid⟩
  · rintro h id ⟨t, ht, hid⟩
    exact h t ht id hid

/-- A switch between templates that suit a usage does so itself, if they can stand in one text. -/
theorem validate_render (h : ∀ t ∈ s.templates, (Template.mk t checked).validate u = .ok ())
    (hm : Mergeable checked s) : (Template.mk s.render checked).validate u = .ok () := by
  refine validate_eq_ok_iff.2
    ⟨provides_render_iff.2 fun t ht => (validate_eq_ok_iff.1 (h t ht)).1, ?_⟩
  rcases hm with hb | hs
  · rw [Switch.render_of_nil hb]
    exact (validate_eq_ok_iff.1 (h s.otherwise (by simp [Switch.templates]))).2
  · exact (Switch.selfContained_render hs).check

theorem validate_render_eq_error
    (h : ∀ t ∈ s.templates, (Template.mk t checked).validate u = .ok ())
    (hm : ¬ Mergeable checked s) :
    ∃ outer ∈ holders, (Template.mk s.render checked).validate u =
      .error (.malformedTemplate u.name
        (.mismatched (String.ofList outer) (String.ofList wrapper))) := by
  rw [Mergeable, not_or] at hm
  obtain ⟨outer, ho, hc⟩ := Switch.check_render_eq_error hm.1
    (fun t ht => (validate_eq_ok_iff.1 (h t ht)).2) hm.2
  refine ⟨outer, ho, ?_⟩
  have hp := provides_render_iff.2 fun t ht => (validate_eq_ok_iff.1 (h t ht)).1
  rw [validate_of_provides (t := ⟨s.render, checked⟩) hp, hc]

end Render

end BoardMarkup.BBCode
