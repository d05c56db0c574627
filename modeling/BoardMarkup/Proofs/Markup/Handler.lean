import BoardMarkup.Proofs.BBCode.Definition
import BoardMarkup.Proofs.Markup.Attribute
import BoardMarkup.Proofs.Markup.Reference

/-! What the tokens of a checked template cannot get into. -/
namespace BoardMarkup.Markup

open BBCode Text

/-- An element of a text, by what stands in its opening tag, or in its only one. -/
def HasElement (cs content : List Char) : Prop :=
  .opening content ∈ (scan .text cs).1 ∨ .empty content ∈ (scan .text cs).1

def attributeText (content : List Char) : List Char := content.drop (elementName content).length

private theorem attributeProblem?_of_walk {checked : Bool}
    {openNames names : List (List Char)} {ts : List Token}
    (h : walk checked openNames ts = .ok names) {content : List Char}
    (hm : .opening content ∈ ts ∨ .empty content ∈ ts) : attributeProblem? checked content = none := by
  induction ts generalizing openNames with
  | nil => simp at hm
  | cons t ts ih =>
    cases t with
    | opening other =>
      unfold walk at h
      split at h
      · cases h
      · next hnone =>
        simp only [List.mem_cons, Token.opening.injEq, reduceCtorEq, false_or] at hm
        rcases hm with (rfl | hm) | hm
        · exact hnone
        · exact ih h (.inl hm)
        · exact ih h (.inr hm)
    | empty other =>
      unfold walk at h
      split at h
      · cases h
      · next hnone =>
        simp only [List.mem_cons, Token.empty.injEq, reduceCtorEq, false_or] at hm
        rcases hm with hm | rfl | hm
        · exact ih h (.inl hm)
        · exact hnone
        · exact ih h (.inr hm)
    | closing name =>
      simp only [List.mem_cons, reduceCtorEq, false_or] at hm
      cases openNames with
      | nil => cases h
      | cons expected openNames =>
        unfold walk at h
        split at h
        · exact ih h hm
        · cases h

theorem attributeProblem?_of_check {checked : Bool} {template : String}
    (h : check checked template = .ok ()) {content : List Char} (he : HasElement template.toList content) :
    attributeProblem? checked content = none := by
  rw [check_eq_ok_iff, scan_append] at h
  exact attributeProblem?_of_walk h.2 (he.imp (List.mem_append_left _) (List.mem_append_left _))

/--
In an accepted template that is checked, the attributes of every element are read as they are written.
None of them turns escaping off, and an event handler has no brace, unless it refers to one.
-/
theorem checked_template_inert {t : Template} {u : Usage} (hc : t.checked = true)
    (h : t.validate u = .ok ()) : ∀ content, HasElement t.source.toList content →
      (∃ ws, Lists (attributeText content) ws) ∧
        ∀ ws, Lists (attributeText content) ws → ∀ w ∈ ws,
          w.name.map Char.toLower ≠ "disable-output-escaping".toList ∧
            ("on".toList <+: w.name.map Char.toLower →
              '{' ∉ w.value ∧ ('{' ∈ dereference w.value ↔ RefersToBrace w.value)) := by
  intro content he
  have hcheck := (validate_eq_ok_iff.1 h).2
  rw [hc] at hcheck
  obtain ⟨hazards, hfault⟩ := attributeProblem?_eq_none_iff.1 (attributeProblem?_of_check hcheck he)
  refine ⟨exists_lists hfault, fun ws hlists w hw => ?_⟩
  have hread := scanAttributes_written hlists hfault
  have hmem : (w.name, w.value) ∈ (attributes content).1.map fun a => (a.name, a.value) := by
    rw [attributes]
    exact hread ▸ List.mem_map_of_mem hw
  obtain ⟨a, ha, he⟩ := List.mem_map.1 hmem
  obtain ⟨hname, hvalue⟩ := Prod.mk.inj he
  obtain ⟨hraw, hhandler⟩ := hazard?_eq_none_iff.1 (hazards a ha)
  rw [hname] at hraw hhandler
  rw [hvalue] at hhandler
  refine ⟨hraw, fun hon => ⟨hhandler hon, ?_⟩⟩
  rw [brace_mem_dereference_iff, or_iff_right (hhandler hon)]

def plainUsage : Usage := ⟨"X", "X", [⟨"TEXT", none, []⟩], [], "[x]{TEXT}[/x]"⟩

theorem checked_template_inert_example :
    (Template.mk "<a onclick=\"go()\">{TEXT}</a>" true).validate plainUsage = .ok () ∧
    HasElement "<a onclick=\"go()\">{TEXT}</a>".toList "a onclick=\"go()\"".toList ∧
    ∀ ws, Lists (attributeText "a onclick=\"go()\"".toList) ws → ∀ w ∈ ws,
      w.name.map Char.toLower ≠ "disable-output-escaping".toList ∧
        ("on".toList <+: w.name.map Char.toLower →
          '{' ∉ w.value ∧ ('{' ∈ dereference w.value ↔ RefersToBrace w.value)) := by
  have hvalidate : (Template.mk "<a onclick=\"go()\">{TEXT}</a>" true).validate plainUsage = .ok () := by
    decide +kernel
  have helement : HasElement "<a onclick=\"go()\">{TEXT}</a>".toList "a onclick=\"go()\"".toList := by
    unfold HasElement
    decide +kernel
  exact ⟨hvalidate, helement, (checked_template_inert rfl hvalidate _ helement).2⟩

/-- An event handler whose value refers to both braces. -/
def escapedHandler : WrittenAttribute where
  lead := [' ']
  name := ['o', 'n', 'c', 'l', 'i', 'c', 'k']
  gap := []
  space := []
  quote := '"'
  value := "&#123;@x&#125;".toList
  leadBlank := List.forall_mem_singleton.2 rfl
  isName := ⟨'o', ['n', 'c', 'l', 'i', 'c', 'k'], rfl, rfl, by simp [isMarkupBlank]⟩
  gapBlank := List.forall_mem_nil _
  spaceBlank := List.forall_mem_nil _
  isQuote := .inl rfl
  enclosed := by simp

/-- Dynamic content whose braces are written as references gets into an event handler. -/
theorem escaped_brace_reaches_handler :
    (Template.mk "<a onclick=\"&#123;@x&#125;\">x</a>" true).validate plainUsage = .ok () ∧
    HasElement "<a onclick=\"&#123;@x&#125;\">x</a>".toList "a onclick=\"&#123;@x&#125;\"".toList ∧
    Lists (attributeText "a onclick=\"&#123;@x&#125;\"".toList) [escapedHandler] ∧
    "on".toList <+: escapedHandler.name.map Char.toLower ∧ '{' ∈ dereference escapedHandler.value := by
  refine ⟨by decide +kernel, ?_, ⟨[], by simp, by decide +kernel⟩, by decide +kernel, by decide +kernel⟩
  unfold HasElement
  decide +kernel

end BoardMarkup.Markup
