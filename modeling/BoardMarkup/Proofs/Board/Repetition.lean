import BoardMarkup.Proofs.Board.Furnish
import BoardMarkup.Proofs.Board.Publication
import BoardMarkup.Proofs.Style.Settled

/-! What a second normalization changes of a template. -/
namespace BoardMarkup.Board

open BBCode Text Style

theorem toList_normalize_default (t : String) : (Normalizer.default.normalize t).toList =
    squeeze [] (Pass.removeComments.apply (stripWhile isBlank t.toList)) := by
  rw [Normalizer.normalize, String.toList_ofList]
  simp only [Normalizer.default, List.foldl_cons, List.foldl_nil, apply_removeInterElementWhitespace]

theorem toList_normalize_board (t : String) : (boardNormalizer.normalize t).toList =
    Pass.transposeComments.apply (squeeze [] (stripWhile isBlank t.toList)) := by
  rw [Normalizer.normalize, String.toList_ofList]
  simp only [boardNormalizer, List.foldl_cons, List.foldl_nil, apply_removeInterElementWhitespace]

/-- The default passes leave a template as it is just when it is settled. -/
theorem normalize_default_eq_self_iff {t : String} :
    Normalizer.default.normalize t = t ↔ Settled t.toList := by
  rw [← String.toList_inj, toList_normalize_default, removeComments_settled_iff]

/-- So do the passes of a board. -/
theorem normalize_board_eq_self_iff {t : String} : boardNormalizer.normalize t = t ↔ Settled t.toList := by
  rw [← String.toList_inj, toList_normalize_board, transposeComments_settled_iff]

theorem settled_normalize_default_iff {t : String} : Settled (Normalizer.default.normalize t).toList ↔
    Trimmed (Pass.removeComments.apply (stripWhile isBlank t.toList)) ∧
      ¬ Commented (Pass.removeComments.apply (stripWhile isBlank t.toList)) := by
  rw [toList_normalize_default]
  generalize Pass.removeComments.apply (stripWhile isBlank t.toList) = bare
  rw [← trimmed_squeeze_iff, ← commented_squeeze_iff []]
  constructor
  · rintro ⟨htrim, hnone, -⟩
    exact ⟨htrim, hnone⟩
  · rintro ⟨htrim, hnone⟩
    exact ⟨htrim, hnone, squeeze_eq_self_iff_not_spaced.1 (squeeze_squeeze bare)⟩

theorem settled_normalize_board_iff {t : String} : Settled (boardNormalizer.normalize t).toList ↔
    (∀ body ∈ findAll comment (Pass.removeInterElementWhitespace.apply (stripWhile isBlank t.toList)),
      ¬ Spaced (commentElement body)) ∧ ¬ Commented (boardNormalizer.normalize t).toList := by
  have htrim : Trimmed (boardNormalizer.normalize t).toList := by
    rw [toList_normalize_board, trimmed_transpose_iff, trimmed_squeeze_iff]
    exact trimmed_stripWhile t.toList
  have hspace : ¬ Spaced (boardNormalizer.normalize t).toList ↔
      ∀ body ∈ findAll comment (squeeze [] (stripWhile isBlank t.toList)),
        ¬ Spaced (commentElement body) := by
    rw [← tight_iff_not_spaced, toList_normalize_board,
      tight_transpose (.refl []) (tight_squeeze (.refl []) _)]
    simp only [tight_iff_not_spaced]
  rw [apply_removeInterElementWhitespace, ← hspace]
  constructor
  · rintro ⟨-, hnone, htight⟩
    exact ⟨htight, hnone⟩
  · rintro ⟨htight, hnone⟩
    exact ⟨htrim, hnone, htight⟩

private theorem settled_of_not_commented {t : String} (h : ¬ Commented t.toList) :
    Settled (Normalizer.default.normalize t).toList ∧ Settled (boardNormalizer.normalize t).toList := by
  have hstrip : ¬ Commented (stripWhile isBlank t.toList) := fun hc =>
    h (hc.of_infix (isInfix_stripWhile _))
  have hsqueeze : ¬ Commented (squeeze [] (stripWhile isBlank t.toList)) := by
    rwa [commented_squeeze_iff]
  rw [settled_normalize_default_iff, settled_normalize_board_iff, apply_removeComments_eq_self hstrip,
    toList_normalize_board, apply_transposeComments_of_not_commented hsqueeze,
    apply_removeInterElementWhitespace, (findAll_comment_eq_nil_iff _).2 hsqueeze]
  exact ⟨⟨trimmed_stripWhile _, hstrip⟩, by simp, hsqueeze⟩

/--
Normalizing once more changes nothing just when what is left of the comments, or the elements written
for them, leaves nothing to do: no blanks at an end, no blanks between tags inside, no new comment.
Without comments that is always so.
-/
theorem normalize_normalize_iff (t : String) :
    (Normalizer.default.normalize (Normalizer.default.normalize t) = Normalizer.default.normalize t ↔
      Trimmed (Pass.removeComments.apply (stripWhile isBlank t.toList)) ∧
        ¬ Commented (Pass.removeComments.apply (stripWhile isBlank t.toList))) ∧
    (boardNormalizer.normalize (boardNormalizer.normalize t) = boardNormalizer.normalize t ↔
      (∀ body ∈ findAll comment (Pass.removeInterElementWhitespace.apply (stripWhile isBlank t.toList)),
        ¬ Spaced (commentElement body)) ∧ ¬ Commented (boardNormalizer.normalize t).toList) ∧
    (¬ Commented t.toList →
      Normalizer.default.normalize (Normalizer.default.normalize t) = Normalizer.default.normalize t ∧
        boardNormalizer.normalize (boardNormalizer.normalize t) = boardNormalizer.normalize t) := by
  rw [normalize_default_eq_self_iff, normalize_board_eq_self_iff]
  exact ⟨settled_normalize_default_iff, settled_normalize_board_iff, settled_of_not_commented⟩

/-- A list on lines of its own. -/
theorem normalize_normalize_example : ¬ Commented "<ul>\n <li/>\n</ul>".toList ∧
    Normalizer.default.normalize (Normalizer.default.normalize "<ul>\n <li/>\n</ul>") =
      Normalizer.default.normalize "<ul>\n <li/>\n</ul>" ∧
    boardNormalizer.normalize (boardNormalizer.normalize "<ul>\n <li/>\n</ul>") =
      boardNormalizer.normalize "<ul>\n <li/>\n</ul>" := by
  have hnone : ¬ Commented "<ul>\n <li/>\n</ul>".toList :=
    (findAll_comment_eq_nil_iff _).1 (by decide +kernel)
  exact ⟨hnone, (normalize_normalize_iff _).2.2 hnone⟩

/-- A comment in a comment, and the end of the element that the outer one becomes. -/
def nestedComment : String := "<!-- <!-- --> --></xsl:comment>"

theorem normalize_nestedComment :
    boardNormalizer.normalize nestedComment = "<xsl:comment> <!-- </xsl:comment> --></xsl:comment>" := by
  decide +kernel

private theorem normalize_normalize_nestedComment :
    boardNormalizer.normalize "<xsl:comment> <!-- </xsl:comment> --></xsl:comment>" =
      "<xsl:comment> <xsl:comment> </xsl:comment> </xsl:comment></xsl:comment>" := by
  decide +kernel

theorem boardCheck_bold {o : Options} {t : String} (h : findAll placeholder t.toList = []) :
    boardCheck o bold t =
      match Markup.check true t with
      | .ok () => .ok ()
      | .error (.fault f) => .error (.malformedTemplate "B" f)
      | .error (.hazard z) => .error (.hazardousTemplate "B" z) := by
  obtain ⟨u, hu⟩ := exists_usage bold_mem
  have hname : u.name = "B" := (usage_names bold_mem hu).1
  have hprovides : Provides u t := by
    intro id hid
    rw [tokensOf, h] at hid
    cases hid
  rw [boardCheck, check_eq_validate o bold_mem hu, ← hname]
  exact validate_of_provides hprovides

/--
What is left behind a comment, and what a comment becomes, are normalized further. On a board the check
accepts such a template for bold text, and refuses what the second normalization makes of it.
-/
theorem comments_normalize_further :
    Normalizer.default.normalize (Normalizer.default.normalize "<!--x--> a") ≠
      Normalizer.default.normalize "<!--x--> a" ∧
    boardNormalizer.normalize (boardNormalizer.normalize nestedComment) ≠
      boardNormalizer.normalize nestedComment ∧
    boardCheck exampleOptions bold (boardNormalizer.normalize nestedComment) = .ok () ∧
    boardCheck exampleOptions bold (boardNormalizer.normalize (boardNormalizer.normalize nestedComment)) =
      .error (.malformedTemplate "B" (.mismatched "template" "xsl:comment")) := by
  have hfirst : Normalizer.default.normalize "<!--x--> a" = " a" := by decide +kernel
  have hsecond : Normalizer.default.normalize " a" = "a" := by decide +kernel
  have hchecked : Markup.check true "<xsl:comment> <!-- </xsl:comment> --></xsl:comment>" = .ok () := by
    decide +kernel
  have hrefused :
      Markup.check true "<xsl:comment> <xsl:comment> </xsl:comment> </xsl:comment></xsl:comment>" =
      .error (.fault (.mismatched "template" "xsl:comment")) := by decide +kernel
  rw [hfirst, hsecond, normalize_nestedComment, normalize_normalize_nestedComment]
  refine ⟨by decide, by decide, ?_, ?_⟩
  · rw [boardCheck_bold (by decide +kernel), hchecked]
  · rw [boardCheck_bold (by decide +kernel), hrefused]

end BoardMarkup.Board
