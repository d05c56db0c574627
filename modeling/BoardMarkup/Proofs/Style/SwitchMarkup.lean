import BoardMarkup.Proofs.Markup.Tag
import BoardMarkup.Proofs.Style.Selection

/-! The markup of a switch: when it is accepted, given that each of its templates is. -/
namespace BoardMarkup.Style

open Markup Text

def whenContent (condition : List Char) : List Char :=
  ['x', 's', 'l', ':', 'w', 'h', 'e', 'n', ' ', 't', 'e', 's', 't', '=', '"'] ++
    (condition ++ ['"'])

/-- The tag of a branch. -/
def whenTag (condition : List Char) (h : '"' ∉ condition) : Tag where
  name := .ofChars 'x' ['s', 'l', ':', 'w', 'h', 'e', 'n'] (by decide)
  attributes := [⟨.ofChars 't' ['e', 's', 't'] (by decide), condition, h⟩]
  distinct := List.nodup_singleton _

private theorem content_whenTag {condition : List Char} (h : '"' ∉ condition) :
    (whenTag condition h).content = whenContent condition := by
  simp [whenTag, Tag.content, whenContent, QuotedAttribute.written, WrittenAttribute.text]

theorem elementName_whenContent (condition : List Char) :
    elementName (whenContent condition) = ['x', 's', 'l', ':', 'w', 'h', 'e', 'n'] := rfl

theorem scan_when {condition : List Char} (h : '"' ∉ condition) :
    scan .text ('<' :: whenContent condition ++ ['>']) = ([.opening (whenContent condition)], .text) := by
  rw [← content_whenTag h]
  exact (whenTag condition h).scan_opening

theorem attributeProblem?_whenContent (checked : Bool) {condition : List Char}
    (h : '"' ∉ condition) : attributeProblem? checked (whenContent condition) = none := by
  rw [← content_whenTag h]
  cases checked with
  | false => exact (whenTag condition h).attributeProblem?_unchecked
  | true =>
    rw [Tag.attributeProblem?_checked_iff]
    intro a ha
    have hlower : ['t', 'e', 's', 't'].map Char.toLower = ['t', 'e', 's', 't'] := by decide
    rw [List.mem_singleton.1 ha, Harmless, Name.text_ofChars, hlower]
    exact ⟨by decide +kernel, fun hon => absurd hon (by decide +kernel)⟩

def branchText (b : List Char × List Char) : List Char :=
  '<' :: whenContent b.1 ++ ['>'] ++ b.2 ++ ['<', '/', 'x', 's', 'l', ':', 'w', 'h', 'e', 'n', '>']

def otherwiseContent : List Char := ['x', 's', 'l', ':', 'o', 't', 'h', 'e', 'r', 'w', 'i', 's', 'e']

def otherwiseText (cs : List Char) : List Char :=
  '<' :: otherwiseContent ++ ['>'] ++ cs ++ '<' :: '/' :: otherwiseContent ++ ['>']

def chooseContent : List Char := ['x', 's', 'l', ':', 'c', 'h', 'o', 'o', 's', 'e']

/-- A choice between templates under conditions. -/
def chooseText (branches : List (List Char × List Char)) (otherwise : List Char) : List Char :=
  '<' :: chooseContent ++ ['>'] ++ (branches.flatMap branchText ++ otherwiseText otherwise) ++
    '<' :: '/' :: chooseContent ++ ['>']

theorem branchText_append (b : List Char × List Char) (rest : List Char) :
    branchText b ++ rest = ('<' :: whenContent b.1 ++ ['>']) ++
      (b.2 ++ '<' :: (['/', 'x', 's', 'l', ':', 'w', 'h', 'e', 'n', '>'] ++ rest)) := by
  simp [branchText]

theorem otherwiseText_append (cs rest : List Char) :
    otherwiseText cs ++ rest = ('<' :: otherwiseContent ++ ['>']) ++
      (cs ++ '<' :: ('/' :: otherwiseContent ++ ['>'] ++ rest)) := by
  simp [otherwiseText]

theorem chooseText_eq (branches : List (List Char × List Char)) (otherwise : List Char) :
    chooseText branches otherwise = ('<' :: chooseContent ++ ['>']) ++
      (branches.flatMap branchText ++
        (otherwiseText otherwise ++ ('<' :: '/' :: chooseContent ++ ['>']))) := by
  simp [chooseText]

theorem scan_whenEnd : scan .text ['<', '/', 'x', 's', 'l', ':', 'w', 'h', 'e', 'n', '>'] =
    ([.closing ['x', 's', 'l', ':', 'w', 'h', 'e', 'n']], .text) := by
  decide

theorem scan_otherwise : scan .text ('<' :: otherwiseContent ++ ['>']) =
    ([.opening otherwiseContent], .text) := by
  decide

theorem scan_otherwiseEnd : scan .text ('<' :: '/' :: otherwiseContent ++ ['>']) =
    ([.closing (elementName otherwiseContent)], .text) := by
  decide

theorem scan_choose : scan .text ('<' :: chooseContent ++ ['>']) =
    ([.opening chooseContent], .text) := by
  decide

theorem scan_chooseEnd : scan .text ('<' :: '/' :: chooseContent ++ ['>']) =
    ([.closing (elementName chooseContent)], .text) := by
  decide

theorem attributeProblem?_otherwise (checked : Bool) :
    attributeProblem? checked otherwiseContent = none := by
  cases checked <;> decide

theorem attributeProblem?_choose (checked : Bool) :
    attributeProblem? checked chooseContent = none := by
  cases checked <;> decide

section Walk

variable {checked : Bool}

theorem walk_branchText {condition cs rest : List Char} (hc : '"' ∉ condition)
    (openNames : List (List Char)) :
    walk checked openNames (scan .text (branchText (condition, cs) ++ rest)).1 =
      walk checked (['x', 's', 'l', ':', 'w', 'h', 'e', 'n'] :: openNames)
        (scan .text (cs ++ (['<', '/', 'x', 's', 'l', ':', 'w', 'h', 'e', 'n', '>'] ++ rest))).1 := by
  rw [branchText_append, walk_start (scan_when hc) (attributeProblem?_whenContent _ hc),
    elementName_whenContent]
  rfl

theorem walk_otherwiseText (cs rest : List Char) (openNames : List (List Char)) :
    walk checked openNames (scan .text (otherwiseText cs ++ rest)).1 =
      walk checked (otherwiseContent :: openNames)
        (scan .text (cs ++ ('<' :: '/' :: otherwiseContent ++ ['>'] ++ rest))).1 := by
  rw [otherwiseText_append, walk_start scan_otherwise (attributeProblem?_otherwise checked)]
  rfl

theorem walk_chooseText (branches : List (List Char × List Char)) (otherwise : List Char)
    (openNames : List (List Char)) :
    walk checked openNames (scan .text (chooseText branches otherwise)).1 =
      walk checked (chooseContent :: openNames) (scan .text (branches.flatMap branchText ++
        (otherwiseText otherwise ++ ('<' :: '/' :: chooseContent ++ ['>'])))).1 := by
  rw [chooseText_eq, walk_start scan_choose (attributeProblem?_choose checked)]
  rfl

/-- A choice between texts that close what they open does so itself. -/
theorem selfContained_chooseText {branches : List (List Char × List Char)} {otherwise : List Char}
    (hc : ∀ b ∈ branches, '"' ∉ b.1) (hb : ∀ b ∈ branches, SelfContained checked b.2)
    (ho : SelfContained checked otherwise) :
    SelfContained checked (chooseText branches otherwise) := by
  have hbranches : SelfContained checked (branches.flatMap branchText) := by
    induction branches with
    | nil => exact .nil checked
    | cons b branches ih =>
      rw [List.flatMap_cons]
      refine .append (.element (scan_when (hc b (by simp)))
        (attributeProblem?_whenContent checked (hc b (by simp))) (hb b (by simp)) ?_)
        (ih (fun b hm => hc b (by simp [hm])) fun b hm => hb b (by simp [hm]))
      rw [elementName_whenContent, scan_whenEnd]
  have hotherwise : SelfContained checked (otherwiseText otherwise) := by
    have h := SelfContained.element scan_otherwise (attributeProblem?_otherwise checked) ho
      scan_otherwiseEnd
    rwa [List.cons_append, ← List.append_assoc, ← List.cons_append] at h
  have h := SelfContained.element scan_choose (attributeProblem?_choose checked)
    (hbranches.append hotherwise) scan_chooseEnd
  rwa [List.cons_append, ← List.append_assoc, ← List.cons_append] at h

def holders : List (List Char) := [['x', 's', 'l', ':', 'w', 'h', 'e', 'n'], otherwiseContent]

/-- A choice closes one of its own elements by the wrong name if one of its texts does. -/
theorem walk_chooseText_eq_error {branches : List (List Char × List Char)} {otherwise : List Char}
    (hc : ∀ b ∈ branches, '"' ∉ b.1)
    (hb : ∀ b ∈ branches, SelfContained checked b.2 ∨ Escapes checked b.2)
    (ho : SelfContained checked otherwise ∨ Escapes checked otherwise)
    (hn : ¬ ∀ cs ∈ branches.map (·.2) ++ [otherwise], SelfContained checked cs) :
    ∃ outer ∈ holders, ∀ openNames,
      walk checked openNames (scan .text (chooseText branches otherwise)).1 =
        .error (.fault (.mismatched (String.ofList outer) (String.ofList wrapper))) := by
  simp only [walk_chooseText]
  generalize '<' :: '/' :: chooseContent ++ ['>'] = rest
  suffices ∃ outer ∈ holders, ∀ openNames,
      walk checked openNames (scan .text (branches.flatMap branchText ++
        (otherwiseText otherwise ++ rest))).1 =
          .error (.fault (.mismatched (String.ofList outer) (String.ofList wrapper))) by
    obtain ⟨outer, hm, h⟩ := this
    exact ⟨outer, hm, fun openNames => h _⟩
  induction branches with
  | nil =>
    rcases ho with ho | ho
    · simp [ho] at hn
    · refine ⟨otherwiseContent, by simp [holders], fun openNames => ?_⟩
      rw [List.flatMap_nil, List.nil_append, walk_otherwiseText]
      refine walk_prefix_error (ho.walk_eq_error ?_ _) _
      rw [wrapper_eq]
      decide
  | cons b branches ih =>
    have hq := hc b (by simp)
    rcases hb b (by simp) with hs | hs
    · obtain ⟨outer, hm, h⟩ := ih (fun b hm => hc b (by simp [hm])) (fun b hm => hb b (by simp [hm]))
        (by simpa [hs] using hn)
      refine ⟨outer, hm, fun openNames => ?_⟩
      have hbranch : SelfContained checked (branchText b) := by
        refine .element (scan_when hq) (attributeProblem?_whenContent checked hq) hs ?_
        rw [elementName_whenContent, scan_whenEnd]
      rw [List.flatMap_cons, List.append_assoc, hbranch.walk_skip, h]
    · refine ⟨['x', 's', 'l', ':', 'w', 'h', 'e', 'n'], by simp [holders], fun openNames => ?_⟩
      rw [List.flatMap_cons, List.append_assoc, walk_branchText hq]
      refine walk_prefix_error (hs.walk_eq_error ?_ _) _
      rw [wrapper_eq]
      decide

end Walk

namespace Switch

private theorem toList_renderBranch (b : List StyleId × String) :
    (renderBranch b).toList = branchText ((condition b.1).toList, b.2.toList) := by
  have hstart : "<xsl:when test=\"".toList =
      ['<', 'x', 's', 'l', ':', 'w', 'h', 'e', 'n', ' ', 't', 'e', 's', 't', '=', '"'] :=
    String.toList_ofList
  have hmiddle : "\">".toList = ['"', '>'] := String.toList_ofList
  have hend : "</xsl:when>".toList = ['<', '/', 'x', 's', 'l', ':', 'w', 'h', 'e', 'n', '>'] :=
    String.toList_ofList
  unfold renderBranch
  simp [branchText, whenContent, hstart, hmiddle, hend]

theorem render_of_nil {s : Switch} (h : s.branches = []) : s.render = s.otherwise := by
  rw [render, h]
  rfl

theorem toList_render {s : Switch} (h : s.branches ≠ []) :
    s.render.toList = chooseText (s.branches.map fun b => ((condition b.1).toList, b.2.toList))
      s.otherwise.toList := by
  have hstart : "<xsl:choose>".toList = '<' :: chooseContent ++ ['>'] := String.toList_ofList
  have hotherwise : "<xsl:otherwise>".toList = '<' :: otherwiseContent ++ ['>'] :=
    String.toList_ofList
  have hend : "</xsl:otherwise></xsl:choose>".toList =
      '<' :: '/' :: otherwiseContent ++ ['>'] ++ '<' :: '/' :: chooseContent ++ ['>'] :=
    String.toList_ofList
  have hb : (s.branches.map renderBranch).flatMap String.toList =
      (s.branches.map fun b => ((condition b.1).toList, b.2.toList)).flatMap branchText := by
    rw [List.flatMap_map, List.flatMap_map]
    simp only [toList_renderBranch]
  unfold render
  rw [if_neg (by simpa using h)]
  simp only [String.toList_append, String.toList_join, hb, hstart, hotherwise, hend]
  simp [chooseText, otherwiseText]

/-- A switch in a text: one template as it stands, or a choice with a condition for each branch. -/
structure WrittenAs (s : Switch) (text : String) : Prop where
  single : s.branches = [] → text = s.otherwise
  choice : s.branches ≠ [] → text.toList =
    chooseText (s.branches.map fun b => ((condition b.1).toList, b.2.toList)) s.otherwise.toList

theorem writtenAs_render (s : Switch) : s.WrittenAs s.render where
  single := render_of_nil
  choice := toList_render

variable {checked : Bool} {s : Switch}

theorem selfContained_render (h : ∀ t ∈ s.templates, SelfContained checked t.toList) :
    SelfContained checked s.render.toList := by
  by_cases hb : s.branches = []
  · rw [render_of_nil hb]
    exact h _ (by simp [templates])
  · rw [toList_render hb]
    refine selfContained_chooseText ?_ ?_ (h _ (by simp [templates])) <;>
      simp only [List.forall_mem_map]
    · exact fun b _ => quote_notMem_condition b.1
    · exact fun b hm => h _ (List.mem_append_left _ (List.mem_map_of_mem hm))

/--
Of a switch between accepted templates one of its own elements is closed by the name of the element
around a template, unless all of them close what they open.
-/
theorem check_render_eq_error (hb : s.branches ≠ [])
    (h : ∀ t ∈ s.templates, check checked t = .ok ())
    (hn : ¬ ∀ t ∈ s.templates, SelfContained checked t.toList) :
    ∃ outer ∈ holders, check checked s.render =
      .error (.fault (.mismatched (String.ofList outer) (String.ofList wrapper))) := by
  have hparts : ∀ t ∈ s.templates,
      SelfContained checked t.toList ∨ Escapes checked t.toList := fun t ht =>
    selfContained_or_escapes (h t ht)
  have hall : ¬ ∀ cs ∈ (s.branches.map fun b => ((condition b.1).toList, b.2.toList)).map (·.2) ++
      [s.otherwise.toList], SelfContained checked cs := by
    refine fun hall => hn fun t ht => hall _ ?_
    rw [templates, List.mem_append, List.mem_map, List.mem_singleton] at ht
    rcases ht with ⟨b, hm, rfl⟩ | rfl
    · simpa using .inl ⟨b.1, b.2, hm, rfl⟩
    · simp
  obtain ⟨outer, hm, hwalk⟩ := walk_chooseText_eq_error
    (List.forall_mem_map.2 fun b _ => quote_notMem_condition b.1)
    (List.forall_mem_map.2 fun b hm => hparts _ (List.mem_append_left _ (List.mem_map_of_mem hm)))
    (hparts _ (by simp [templates])) hall
  exact ⟨outer, hm, check_eq_error_of_walk (by rw [toList_render hb, hwalk])⟩

end Switch

end BoardMarkup.Style
