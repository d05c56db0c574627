import BoardMarkup.Proofs.Markup.Handler
import BoardMarkup.Proofs.Markup.Tag

/-! Forests of elements and text, and when the markup that writes one is accepted. -/
namespace BoardMarkup.Markup

open Text

abbrev PlainText := { cs : List Char // ∀ c ∈ cs, c ≠ '<' ∧ c ≠ '&' }

/-- Elements and text next to each other. An element without content may be written as one tag. -/
inductive Forest where
  | nil
  | text (run : PlainText) (rest : Forest)
  | empty (tag : Tag) (rest : Forest)
  | element (tag : Tag) (content rest : Forest)

namespace Forest

def write : Forest → List Char
  | nil => []
  | text run rest => run.1 ++ rest.write
  | empty tag rest => '<' :: tag.content ++ ['/', '>'] ++ rest.write
  | element tag content rest =>
    '<' :: tag.content ++ ['>'] ++ (content.write ++ ('<' :: '/' :: tag.name.text ++ ['>'] ++ rest.write))

/-- The tags in it, without those that close. -/
def tags : Forest → List Tag
  | nil => []
  | text _ rest => rest.tags
  | empty tag rest => tag :: rest.tags
  | element tag content rest => tag :: (content.tags ++ rest.tags)

def tokens : Forest → List Token
  | nil => []
  | text _ rest => rest.tokens
  | empty tag rest => .empty tag.content :: rest.tokens
  | element tag content rest =>
    .opening tag.content :: (content.tokens ++ .closing tag.name.text :: rest.tokens)

end Forest

private theorem scan_plainText (run : PlainText) : scan .text run.1 = ([], .text) := by
  obtain ⟨cs, h⟩ := run
  induction cs with
  | nil => rfl
  | cons c cs ih =>
    obtain ⟨hless, hamp⟩ := h c List.mem_cons_self
    rw [scan_cons, step, if_neg hless, if_neg hamp, ih fun c hc => h c (.tail _ hc)]
    rfl

namespace Forest

theorem scan_write (f : Forest) : scan .text f.write = (f.tokens, .text) := by
  induction f with
  | nil => rfl
  | text run rest ih => rw [write, scan_append, scan_plainText, ih, tokens, List.nil_append]
  | empty tag rest ih => rw [write, scan_append, tag.scan_empty, ih, tokens, List.singleton_append]
  | element tag content rest ihContent ihRest =>
    rw [write, scan_append, tag.scan_opening, scan_append, ihContent, scan_append,
      tag.name.scan_closing, ihRest,
      tokens, List.singleton_append, List.singleton_append]

/-- The elements of a forest are closed in the order in which they are opened. -/
theorem walk_tokens {checked : Bool} {f : Forest}
    (h : ∀ tag ∈ f.tags, attributeProblem? checked tag.content = none) (openNames : List (List Char)) :
    walk checked openNames f.tokens = .ok openNames := by
  induction f generalizing openNames with
  | nil => rfl
  | text run rest ih => exact ih h openNames
  | empty tag rest ih =>
    have htag := h tag List.mem_cons_self
    simp only [tokens, walk, htag]
    exact ih (fun t ht => h t (.tail _ ht)) openNames
  | element tag content rest ihContent ihRest =>
    have htag := h tag List.mem_cons_self
    have hcontent :=
      ihContent (fun t ht => h t (.tail _ (List.mem_append_left _ ht))) (tag.name.text :: openNames)
    simp only [tokens, walk, htag, walk_append, tag.elementName_content, hcontent]
    simp only [bind, Except.bind, walk, if_true]
    exact ihRest (fun t ht => h t (.tail _ (List.mem_append_right _ ht))) openNames

theorem selfContained_write {checked : Bool} {f : Forest}
    (h : ∀ tag ∈ f.tags, attributeProblem? checked tag.content = none) : SelfContained checked f.write := by
  rw [SelfContained, scan_write]
  exact ⟨rfl, walk_tokens h []⟩

theorem mem_tokens {f : Forest} {tag : Tag} (h : tag ∈ f.tags) :
    .opening tag.content ∈ f.tokens ∨ .empty tag.content ∈ f.tokens := by
  induction f with
  | nil => cases h
  | text run rest ih => exact ih h
  | empty other rest ih =>
    rcases List.mem_cons.1 h with rfl | h
    · exact .inr List.mem_cons_self
    · exact (ih h).imp (.tail _) (.tail _)
  | element other content rest ihContent ihRest =>
    rcases List.mem_cons.1 h with rfl | h
    · exact .inl List.mem_cons_self
    · rcases List.mem_append.1 h with h | h
      · exact (ihContent h).imp (fun hm => .tail _ (List.mem_append_left _ hm))
          fun hm => .tail _ (List.mem_append_left _ hm)
      · exact (ihRest h).imp (fun hm => .tail _ (List.mem_append_right _ (.tail _ hm)))
          fun hm => .tail _ (List.mem_append_right _ (.tail _ hm))

end Forest

/--
The markup of every forest is accepted, with the check for hazards just when all of its attributes are
harmless.
-/
theorem forest_accepted (f : Forest) :
    check false (String.ofList f.write) = .ok () ∧
      (check true (String.ofList f.write) = .ok () ↔
        ∀ tag ∈ f.tags, ∀ a ∈ tag.attributes, Harmless a.name.text a.value) := by
  have haccepted : ∀ {checked : Bool}, (∀ tag ∈ f.tags, attributeProblem? checked tag.content = none) →
      check checked (String.ofList f.write) = .ok () := by
    intro checked h
    refine SelfContained.check ?_
    rw [String.toList_ofList]
    exact f.selfContained_write h
  refine ⟨haccepted fun tag _ => tag.attributeProblem?_unchecked, fun h tag htag => ?_, fun h => ?_⟩
  · have helement : HasElement (String.ofList f.write).toList tag.content := by
      rw [HasElement, String.toList_ofList, f.scan_write]
      exact f.mem_tokens htag
    exact tag.attributeProblem?_checked_iff.1 (attributeProblem?_of_check h helement)
  · exact haccepted fun tag htag => tag.attributeProblem?_checked_iff.2 (h tag htag)

def capitalHandler : Forest :=
  .empty ⟨.ofChars 'a' [] (by decide),
    [⟨.ofChars 'O' ['N', 'C', 'L', 'I', 'C', 'K'] (by decide), "\x7bTEXT\x7d".toList, by decide +kernel⟩],
    by simp⟩ .nil

/-- The case of a name does not matter for the check. -/
theorem capital_handler_refused :
    (∀ tag ∈ capitalHandler.tags, ∀ a ∈ tag.attributes, a.name.text ≠ "disable-output-escaping".toList ∧
      ("on".toList <+: a.name.text → '{' ∉ a.value)) ∧
    check true (String.ofList capitalHandler.write) = .error (.hazard (.dynamicHandler "onclick")) := by
  refine ⟨?_, by decide +kernel⟩
  unfold capitalHandler
  decide +kernel

end BoardMarkup.Markup
