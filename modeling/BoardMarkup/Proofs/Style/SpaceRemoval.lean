import BoardMarkup.Proofs.Style.ElementSpace
import BoardMarkup.Proofs.Text.Removal

/-! Which blanks between tags a pass removes, and that it removes nothing else. -/
namespace BoardMarkup.Style

open Text

/--
Blanks with a line break that fill the space between a tag and the next one, where the first is not written
`<xsl:text>`. No other blank adjoins such a run, since a tag stands on either side.
-/
def IsElementSpace (before run rest : List Char) : Prop :=
  ['>'] <:+ before ∧ ¬ "<xsl:text>".toList <:+ before ∧ (∀ c ∈ run, isMarkupBlank c) ∧
    '\n' ∈ run ∧ ['<'] <+: rest

instance (before run rest : List Char) : Decidable (IsElementSpace before run rest) :=
  have : Decidable (∀ c ∈ run, isMarkupBlank c) := List.decidableBAll _ run
  inferInstanceAs (Decidable (_ ∧ _))

private theorem elementSpace_of_isElementSpace {before run rest : List Char}
    (h : IsElementSpace before run rest) :
    elementSpace before.reverse (run ++ rest) = some ((), run.length) := by
  obtain ⟨hfirst, hopen, hblank, hline, tail, rfl⟩ := h
  rw [List.singleton_append, elementSpace_run hblank, if_pos]
  exact ⟨head?_reverse_eq_some_iff.2 hfirst, hline, after?_textTag_reverse_eq_none_iff.2 hopen⟩

private theorem isElementSpace_of_elementSpace {before cs : List Char} {n : Nat}
    (h : elementSpace before cs = some ((), n)) :
    ∃ run rest, cs = run ++ rest ∧ n = run.length ∧ IsElementSpace before.reverse run rest := by
  rw [elementSpace_eq] at h
  split at h
  · next hspace =>
    obtain ⟨hfirst, hline, hless, hopen⟩ := hspace
    have hn : (cs.takeWhile isMarkupBlank).length = n := congrArg Prod.snd (Option.some.inj h)
    obtain ⟨tail, htail⟩ := List.head?_eq_some_iff.1 hless
    rw [← List.reverse_reverse before] at hfirst hopen
    refine ⟨cs.takeWhile isMarkupBlank, cs.dropWhile isMarkupBlank,
      List.takeWhile_append_dropWhile.symm, hn.symm,
      head?_reverse_eq_some_iff.1 hfirst, after?_textTag_reverse_eq_none_iff.1 hopen, ?_, hline, tail,
        htail.symm⟩
    exact fun c hc => List.mem_takeWhile_imp hc
  · cases h

private theorem elementSpace_findsRuns : elementSpace.FindsRuns IsElementSpace isMarkupBlank where
  found _ _ _ := elementSpace_of_isElementSpace
  is_run _ _ _ := isElementSpace_of_elementSpace
  ne_nil _ _ _ h := List.ne_nil_of_mem h.2.2.2.1
  filled _ _ _ h := h.2.2.1
  ends _ _ _ h := by
    obtain ⟨-, -, -, -, tail, rfl⟩ := h
    exact ⟨'<', tail, rfl, by decide⟩

/--
A pass keeps the characters outside of such runs, in their order, and a second one removes nothing more.
-/
theorem removes_element_space (cs : List Char) :
    Pass.removeInterElementWhitespace.apply cs = outsideRuns IsElementSpace cs ∧
    Pass.removeInterElementWhitespace.apply (Pass.removeInterElementWhitespace.apply cs) =
      Pass.removeInterElementWhitespace.apply cs := by
  constructor
  · rw [Pass.apply, replaceAll_eq_outsideRuns elementSpace_findsRuns]
  · rw [apply_removeInterElementWhitespace, apply_removeInterElementWhitespace, squeeze_squeeze]

/-- Blanks without a line break stay, and so do those in `<xsl:text>`. -/
example : outsideRuns IsElementSpace "<b>\n\t<i> <xsl:text>\n<".toList = "<b><i> <xsl:text>\n<".toList := by
  decide +kernel

end BoardMarkup.Style
