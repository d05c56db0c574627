import BoardMarkup.Proofs.Board.Plain
import BoardMarkup.Proofs.Style.Merging

/-! The tokens of templates that a board combines: those of the parts, and no others. -/
namespace BoardMarkup.Board

open BBCode Style Text

def viewVariable : List Char := ['$', 'S', '_', 'V', 'I', 'E', 'W']

private theorem toList_viewSwitch_eq_chooseText (tag t : String) : (viewSwitch tag t).toList =
    chooseText [(viewVariable ++ tag.toList, t.toList)] applyTemplates.toList := by
  have hother : applyTemplates.toList =
      ['<', 'x', 's', 'l', ':', 'a', 'p', 'p', 'l', 'y', '-', 't', 'e', 'm', 'p',
      'l', 'a', 't', 'e', 's', '/', '>'] := String.toList_ofList
  rw [toList_viewSwitch, hother]
  simp [viewStart, viewTest, viewEnd, viewVariable, chooseText, chooseContent, branchText, whenContent,
    otherwiseText, otherwiseContent]

theorem tokensOf_viewSwitch {tag : String} (h : '{' ∉ tag.toList) (t : String) :
    tokensOf (viewSwitch tag t) = tokensOf t := by
  have hother : tokensOf applyTemplates = [] := by decide
  have htext : (viewSwitch tag t).toList = chooseText
      ([(viewVariable ++ tag.toList, t)].map fun b => (b.1, b.2.toList)) applyTemplates.toList :=
    toList_viewSwitch_eq_chooseText tag t
  rw [tokensOf_of_chooseText htext (by simp [viewVariable, h])]
  simp [hother]

section Merged

variable {templates : List (StyleId × String)} {w : Switch}

private theorem mem_tokensOf_merged (hw : Switch.ofTemplates? templates = some w) {id : String} :
    id ∈ tokensOf w.render ↔ ∃ p ∈ templates, id ∈ tokensOf p.2 := by
  rw [tokensOf_render, List.mem_flatMap]
  simp only [Switch.mem_templates_iff hw]
  constructor
  · rintro ⟨-, ⟨p, hp, rfl⟩, hid⟩
    exact ⟨p, hp, hid⟩
  · rintro ⟨p, hp, hid⟩
    exact ⟨p.2, ⟨p, hp, rfl⟩, hid⟩

/-- The tokens of the merged template are provided for just when those of each style's template are. -/
theorem provides_merged_iff (hw : Switch.ofTemplates? templates = some w) {u : Usage} :
    Provides u w.render ↔ ∀ p ∈ templates, Provides u p.2 := by
  rw [provides_render_iff]
  simp only [Switch.mem_templates_iff hw]
  constructor
  · exact fun h p hp => h p.2 ⟨p, hp, rfl⟩
  · rintro h - ⟨p, hp, rfl⟩
    exact h p hp

end Merged

/--
The template merged from those of several styles has the tokens of each, and no others. A switch on what
the reader wants to see changes no token of the template in it. So the combined template is refused for
an undefined token just when a style's template has a token that neither the usage defines nor the
language of the reader.
-/
theorem combined_template_keeps_tokens (templates : List (StyleId × String)) (hne : templates ≠ []) :
    ∃ text, merge? templates = some text ∧
      (∀ id, id ∈ tokensOf text ↔ ∃ p ∈ templates, id ∈ tokensOf p.2) ∧
      (∀ tag ∈ ["FLASH", "IMG"], ∀ t, tokensOf (viewSwitch tag t) = tokensOf t) ∧
      ∀ (u : Usage) (checked : Bool), ∀ shown ∈ [text, viewSwitch "FLASH" text, viewSwitch "IMG" text],
        (∀ name id, (Template.mk shown checked).validate u ≠ .error (.undefinedToken name id)) ↔
          ∀ p ∈ templates, Provides u p.2 := by
  obtain ⟨w, hw⟩ : ∃ w, Switch.ofTemplates? templates = some w :=
    Option.ne_none_iff_exists'.1 fun h => hne (Switch.ofTemplates?_eq_none_iff.1 h)
  have hview : ∀ tag ∈ ["FLASH", "IMG"], ∀ t, tokensOf (viewSwitch tag t) = tokensOf t := by
    have hbrace : ∀ tag ∈ ["FLASH", "IMG"], '{' ∉ tag.toList := by decide
    exact fun tag htag => tokensOf_viewSwitch (hbrace tag htag)
  refine ⟨w.render, by rw [merge?, hw, Option.map_some], fun _ => mem_tokensOf_merged hw, hview, ?_⟩
  intro u checked shown hshown
  have hsame : tokensOf shown = tokensOf w.render := by
    simp only [List.mem_cons, List.not_mem_nil, or_false] at hshown
    rcases hshown with rfl | rfl | rfl
    · rfl
    · exact hview "FLASH" (by decide) w.render
    · exact hview "IMG" (by decide) w.render
  rw [← provides_iff (t := ⟨shown, checked⟩), ← provides_merged_iff hw, Provides, Provides, hsame]

/-- Templates of two styles that would give one more token if they followed each other. -/
def tornStyles : List (StyleId × String) :=
  [(1, "\x7bURL\x7d\x7bTEXT"), (2, "\x7d\x7bL_HINT\x7d\x7bTEXT")]

def linkUsage : Usage := ⟨"X", "X", [⟨"URL", none, []⟩], [], "[x={URL}][/x]"⟩

/-- The merged template has all tokens that are whole, but not the torn one. -/
theorem combined_template_keeps_tokens_torn : tornStyles ≠ [] ∧ ∃ text, merge? tornStyles = some text ∧
    "URL" ∈ tokensOf text ∧ "L_HINT" ∈ tokensOf text ∧ "TEXT" ∉ tokensOf text ∧
    tokensOf (viewSwitch "IMG" text) = tokensOf text ∧
    ∀ name id, (Template.mk text true).validate linkUsage ≠ .error (.undefinedToken name id) := by
  obtain ⟨text, hmerge, htokens, hview, hrefused⟩ := combined_template_keeps_tokens tornStyles (by decide)
  have htorn : ∀ p ∈ tornStyles, "TEXT" ∉ tokensOf p.2 := by decide
  have hprovides : ∀ p ∈ tornStyles, ∀ id ∈ tokensOf p.2, isLanguageToken id ∨ linkUsage.defines id := by
    decide
  refine ⟨by decide, text, hmerge, (htokens "URL").2 ?_, (htokens "L_HINT").2 ?_, fun h => ?_,
    hview "IMG" (by decide) text, (hrefused linkUsage true text (by simp)).2 hprovides⟩
  · exact ⟨(1, "\x7bURL\x7d\x7bTEXT"), by decide, by decide⟩
  · exact ⟨(2, "\x7d\x7bL_HINT\x7d\x7bTEXT"), by decide, by decide⟩
  · obtain ⟨p, hp, htext⟩ := (htokens "TEXT").1 h
    exact htorn p hp htext

end BoardMarkup.Board
