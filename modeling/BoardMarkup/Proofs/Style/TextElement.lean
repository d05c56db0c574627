import BoardMarkup.Proofs.Style.ElementSpace

/-!
The content of `xsl:text` where blanks between tags are removed: when it stays, and what goes otherwise.
-/
namespace BoardMarkup.Style

open Text

/-- An element `xsl:text`: what stands behind the name in its first tag, and the text up to the next tag. -/
structure TextElement where
  attributes : List Char
  content : List Char
  content_plain : '<' ∉ content

namespace TextElement

def opening (e : TextElement) : List Char := "<xsl:text".toList ++ e.attributes ++ ['>']

def closing : List Char := "</xsl:text".toList

def stripped (e : TextElement) : List Char := dropEndWhile isMarkupBlank e.content

def trailing (e : TextElement) : List Char := e.content.drop e.stripped.length

/--
Whether these blanks hold a line break and stand behind a `>`, other than that of a tag written
`<xsl:text>`.
-/
def Exposed (e : TextElement) : Prop :=
  '\n' ∈ e.trailing ∧ ['>'] <:+ e.opening ++ e.stripped ∧ ¬ "<xsl:text>".toList <:+ e.opening ++ e.stripped

instance (e : TextElement) : Decidable e.Exposed := inferInstanceAs (Decidable (_ ∧ _))

variable (e : TextElement)

theorem opening_eq : e.opening = ['<', 'x', 's', 'l', ':', 't', 'e', 'x', 't'] ++ e.attributes ++ ['>'] := by
  have hname : "<xsl:text".toList = ['<', 'x', 's', 'l', ':', 't', 'e', 'x', 't'] := String.toList_ofList
  exact congrArg (· ++ e.attributes ++ ['>']) hname

theorem closing_eq : closing = ['<', '/', 'x', 's', 'l', ':', 't', 'e', 'x', 't'] := String.toList_ofList

theorem content_eq : e.content = e.stripped ++ e.trailing ∧ (∀ c ∈ e.trailing, isMarkupBlank c) ∧
    ∀ c, e.stripped.getLast? = some c → isMarkupBlank c = false := by
  obtain ⟨run, hcontent, hrun, hlast⟩ :=
    dropEndWhile_eq_iff.1 (rfl : dropEndWhile isMarkupBlank e.content = _)
  have htrailing : e.trailing = run := (congrArg (List.drop e.stripped.length) hcontent).trans List.drop_left
  rw [htrailing]
  exact ⟨hcontent, hrun, hlast⟩

/-- The first tag is no shorter than `<xsl:text>`, so what ends behind it does not begin before it. -/
theorem suffix_opening_iff {mark : List Char} (hmark : mark.length ≤ 10) (before inner : List Char) :
    mark <:+ before ++ (e.opening ++ inner) ↔ mark <:+ e.opening ++ inner := by
  constructor
  · intro h
    refine List.suffix_of_suffix_length_le h (List.suffix_append before _) (hmark.trans ?_)
    simp only [opening_eq, List.length_append, List.length_cons, List.length_nil]
    omega
  · intro h
    exact h.trans (List.suffix_append before _)

/-- The blanks are exposed just when a pass removes them. -/
theorem exposed_iff (before : List Char) : e.Exposed ↔
    (before ++ (e.opening ++ e.stripped)).reverse.head? = some '>' ∧ '\n' ∈ e.trailing ∧
      after? textTag (before ++ (e.opening ++ e.stripped)).reverse = none := by
  have hlength : "<xsl:text>".toList.length = 10 := by
    rw [String.toList_ofList]
    rfl
  rw [Exposed, head?_reverse_eq_some_iff, after?_textTag_reverse_eq_none_iff,
    e.suffix_opening_iff (by decide),
    e.suffix_opening_iff hlength.le, and_left_comm]

/-- A pass leaves the content up to the blanks at its end. -/
theorem squeeze_stripped (before rest : List Char) :
    squeeze [] (before ++ e.opening ++ e.content ++ '<' :: rest) = squeeze [] (before ++ e.opening) ++
      e.stripped ++ squeeze (before ++ (e.opening ++ e.stripped)).reverse (e.trailing ++ '<' :: rest) := by
  obtain ⟨hcontent, -, hlast⟩ := e.content_eq
  have hless : '<' ∉ e.stripped := fun hm => e.content_plain (hcontent ▸ List.mem_append_left _ hm)
  obtain ⟨start, hstart⟩ : ∃ start, before ++ e.opening = start ++ ['>'] :=
    ⟨before ++ (['<', 'x', 's', 'l', ':', 't', 'e', 'x', 't'] ++ e.attributes), by
      rw [opening_eq, ← List.append_assoc]⟩
  have hsplit : before ++ e.opening ++ e.content ++ '<' :: rest =
      start ++ '>' :: (e.stripped ++ (e.trailing ++ '<' :: rest)) := by
    rw [hstart, hcontent]
    simp
  have hbehind : (before ++ (e.opening ++ e.stripped)).reverse =
      e.stripped.reverse ++ '>' :: (start.reverse ++ []) := by
    rw [← List.append_assoc, hstart]
    simp
  rw [hsplit, squeeze_append_cons (by decide), squeeze_append_of_notMem hless hlast, hstart, hbehind,
    List.append_assoc]

theorem squeeze_content (before rest : List Char) :
    squeeze [] (before ++ e.opening ++ e.content ++ '<' :: rest) = squeeze [] (before ++ e.opening) ++
      (if e.Exposed then e.stripped else e.content) ++ squeeze [] ('<' :: rest) := by
  obtain ⟨hcontent, htrailing, -⟩ := e.content_eq
  rw [squeeze_stripped]
  split
  · next h =>
    obtain ⟨hfirst, hline, hopen⟩ := (e.exposed_iff before).1 h
    rw [squeeze_space htrailing hfirst hline hopen]
  · next h =>
    rw [squeeze_kept_run htrailing (mt (e.exposed_iff before).2 h), ← List.append_assoc,
      List.append_assoc _ e.stripped, ← hcontent]

theorem stripped_ne_content (h : e.Exposed) : e.stripped ≠ e.content := by
  intro he
  have hline := h.1
  rw [trailing, he, List.drop_length] at hline
  cases hline

/-- A tag without another one inside stays as it is. -/
theorem opening_suffix_squeeze (h : '<' ∉ e.attributes) (before : List Char) :
    e.opening <:+ squeeze [] (before ++ e.opening) := by
  obtain ⟨tail, htail, hless⟩ : ∃ tail, e.opening = '<' :: tail ∧ '<' ∉ tail :=
    ⟨['x', 's', 'l', ':', 't', 'e', 'x', 't'] ++ e.attributes ++ ['>'], e.opening_eq, by simp [h]⟩
  obtain ⟨kept, hkept⟩ := squeeze_concat [] before '<'
  rw [htail, squeeze_append_cons (by decide), hkept, squeeze_of_notMem hless]
  exact ⟨kept, by simp⟩

private theorem closing_prefix_squeeze (rest : List Char) : closing <+: squeeze [] (closing ++ rest) := by
  have hkept : ∀ c ∈ closing, isMarkupBlank c = false := by
    rw [closing_eq]
    simp [isMarkupBlank]
  rw [squeeze_append_of_notBlank hkept]
  exact List.prefix_append _ _

end TextElement

/--
Where blanks between tags are removed, the tags of `xsl:text` stay, and so does its content unless it
ends in blanks with a line break that stand behind a `>`, other than that of a tag written `<xsl:text>`.
Then these blanks go.
-/
theorem text_content_kept (e : TextElement) (before rest : List Char) :
    Pass.removeInterElementWhitespace.apply
      (before ++ e.opening ++ e.content ++ (TextElement.closing ++ rest)) =
      Pass.removeInterElementWhitespace.apply (before ++ e.opening) ++
        (if e.Exposed then e.stripped else e.content) ++
        Pass.removeInterElementWhitespace.apply (TextElement.closing ++ rest) ∧
    (e.Exposed → e.stripped ≠ e.content) ∧
    ('<' ∉ e.attributes → e.opening <:+ Pass.removeInterElementWhitespace.apply (before ++ e.opening)) ∧
    TextElement.closing <+: Pass.removeInterElementWhitespace.apply (TextElement.closing ++ rest) := by
  simp only [apply_removeInterElementWhitespace]
  refine ⟨?_, e.stripped_ne_content, fun h => e.opening_suffix_squeeze h before,
    TextElement.closing_prefix_squeeze rest⟩
  rw [TextElement.closing_eq]
  exact e.squeeze_content before _

def lineBreak (attributes : List Char) : TextElement := ⟨attributes, ['\n'], by decide⟩

def spaceAttribute : List Char := " xml:space=\"preserve\"".toList

/-- Without attributes the line break stays, with one it goes. -/
theorem text_content_kept_lineBreak : ¬ (lineBreak []).Exposed ∧ (lineBreak spaceAttribute).Exposed ∧
    '<' ∉ spaceAttribute ∧
    Pass.removeInterElementWhitespace.apply ("<b>\n".toList ++ (lineBreak []).opening ++ ['\n'] ++
        (TextElement.closing ++ ">\n</b>".toList)) =
      Pass.removeInterElementWhitespace.apply ("<b>\n".toList ++ (lineBreak []).opening) ++ ['\n'] ++
        Pass.removeInterElementWhitespace.apply (TextElement.closing ++ ">\n</b>".toList) ∧
    (lineBreak spaceAttribute).stripped ≠ ['\n'] ∧
    (lineBreak spaceAttribute).opening <:+
      Pass.removeInterElementWhitespace.apply ("<b>\n".toList ++ (lineBreak spaceAttribute).opening) := by
  have hkept : ¬ (lineBreak []).Exposed := by decide +kernel
  have hexposed : (lineBreak spaceAttribute).Exposed := by decide +kernel
  have hplain : '<' ∉ spaceAttribute := by decide +kernel
  obtain ⟨hpass, -⟩ := text_content_kept (lineBreak []) "<b>\n".toList ">\n</b>".toList
  obtain ⟨-, hlost, htag, -⟩ := text_content_kept (lineBreak spaceAttribute) "<b>\n".toList []
  rw [if_neg hkept] at hpass
  exact ⟨hkept, hexposed, hplain, hpass, hlost hexposed, htag hplain⟩

/-- A line break in a text goes where its tag has an attribute, or where a `>` stands before it. -/
theorem text_blanks_removed :
    Pass.removeInterElementWhitespace.apply "<xsl:text xml:space=\"preserve\">\n</xsl:text>".toList =
      "<xsl:text xml:space=\"preserve\"></xsl:text>".toList ∧
    Pass.removeInterElementWhitespace.apply "<xsl:text>->\n</xsl:text>".toList =
      "<xsl:text>-></xsl:text>".toList := by
  decide +kernel

end BoardMarkup.Style
