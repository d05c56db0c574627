import BoardMarkup.Proofs.Board.Furnish
import BoardMarkup.Proofs.Style.Spacing

/-! Templates that are read the same before and after all that a board does to them. -/
namespace BoardMarkup.Board

open BBCode Markup Style Text

/-- A template that closes what it opens, without comments and with every `<` in text. -/
structure Plain (t : String) : Prop where
  selfContained : SelfContained false t.toList
  opensInText : opensInText .text t.toList = true
  noComment : ¬ commentMark <:+: t.toList

private theorem Plain.scan_normalize {t : String} (h : Plain t) :
    scan .text (boardNormalizer.normalize t).toList = scan .text t.toList := by
  obtain ⟨start, last, hstrip, -, -⟩ := eq_append_stripWhile isBlank t.toList
  have hinfix : ¬ commentMark <:+: stripWhile isBlank t.toList :=
    fun hi => h.noComment (hi.trans ⟨start, last, hstrip.symm⟩)
  rw [Normalizer.normalize, String.toList_ofList]
  simp only [boardNormalizer, List.foldl_cons, List.foldl_nil, apply_removeInterElementWhitespace]
  rw [apply_transposeComments_eq_self (commentMark_notInfix_squeeze hinfix),
    scan_squeeze (opensInText_strip h.opensInText), scan_strip h.selfContained.1]

theorem Plain.check_normalize {t : String} (h : Plain t) :
    check false (boardNormalizer.normalize t) = .ok () := by
  refine SelfContained.check ?_
  rw [SelfContained, h.scan_normalize]
  exact h.selfContained

def viewTest : List Char :=
  ['<', 'x', 's', 'l', ':', 'c', 'h', 'o', 'o', 's', 'e', '>',
    '<', 'x', 's', 'l', ':', 'w', 'h', 'e', 'n', ' ', 't', 'e', 's', 't', '=', '"',
    '$', 'S', '_', 'V', 'I', 'E', 'W']

def viewStart (tag : List Char) : List Char := viewTest ++ tag ++ ['"', '>']

def viewEnd : List Char :=
  ['<', '/', 'x', 's', 'l', ':', 'w', 'h', 'e', 'n', '>',
    '<', 'x', 's', 'l', ':', 'o', 't', 'h', 'e', 'r', 'w', 'i', 's', 'e', '>',
    '<', 'x', 's', 'l', ':', 'a', 'p', 'p', 'l', 'y', '-', 't', 'e', 'm', 'p', 'l', 'a', 't', 'e', 's',
    '/', '>', '<', '/', 'x', 's', 'l', ':', 'o', 't', 'h', 'e', 'r', 'w', 'i', 's', 'e', '>',
    '<', '/', 'x', 's', 'l', ':', 'c', 'h', 'o', 'o', 's', 'e', '>']

theorem toList_viewSwitch (tag t : String) :
    (viewSwitch tag t).toList = viewStart tag.toList ++ t.toList ++ viewEnd := by
  have hstart : "<xsl:choose><xsl:when test=\"$S_VIEW".toList = viewTest := String.toList_ofList
  have hquote : "\">".toList = ['"', '>'] := String.toList_ofList
  have hend : "</xsl:when><xsl:otherwise><xsl:apply-templates/></xsl:otherwise></xsl:choose>".toList =
      viewEnd := String.toList_ofList
  unfold viewSwitch viewStart
  rw [String.toList_append, String.toList_append, String.toList_append, String.toList_append, hstart,
    hquote, hend]

theorem selfContained_view {tag t : List Char}
    (htag : tag = ['F', 'L', 'A', 'S', 'H'] ∨ tag = ['I', 'M', 'G']) (h : SelfContained false t) :
    SelfContained false (viewStart tag ++ t ++ viewEnd) := by
  refine .between [['x', 's', 'l', ':', 'w', 'h', 'e', 'n'],
    ['x', 's', 'l', ':', 'c', 'h', 'o', 'o', 's', 'e']] ?_ ?_ h (by decide) (by decide) <;>
      rcases htag with rfl | rfl <;> decide

/-- A template that closes what it opens, on one line, between tags and without comments. -/
structure Steady (t : String) : Prop where
  selfContained : SelfContained false t.toList
  line : t.toList.all fun c => c != '\n' && c != '!'
  ends : (t.toList.head?, t.toList.getLast?) = (some '<', some '>')

theorem steady_catalog {d : Directive} (h : d ∈ catalog) : Steady d.template :=
  ⟨(catalog_selfContained d h).unchecked, catalog_lines d h, catalog_ends d h⟩

namespace Steady

variable {t : String}

theorem normalize (h : Steady t) : boardNormalizer.normalize t = t := normalize_eq_self h.line h.ends

theorem shownTemplate (h : Steady t) (tag : String) : Steady (shownTemplate tag t) := by
  unfold Board.shownTemplate
  split
  · next htag =>
    refine ⟨?_, ?_, ?_⟩ <;> rw [toList_viewSwitch]
    · refine selfContained_view (htag.imp ?_ ?_) h.selfContained <;>
      · rintro rfl
        exact String.toList_ofList
    · have hview : (viewStart tag.toList).all (fun c => c != '\n' && c != '!') := by
        rcases htag with rfl | rfl <;> decide
      rw [List.all_append, List.all_append, hview, h.line]
      decide
    · rw [List.getLast?_append]
      rfl
  · exact h

theorem check_normalize_shownTemplate (h : Steady t) (tag : String) :
    check false (boardNormalizer.normalize (Board.shownTemplate tag t)) = .ok () := by
  rw [(h.shownTemplate tag).normalize]
  exact (h.shownTemplate tag).selfContained.check

private theorem line_condition (ids : List StyleId) :
    (Switch.condition ids).toList.all fun c => c != '\n' && c != '!' := by
  rw [List.all_eq_true]
  intro c hc
  have hline : '\n' ∉ (Switch.condition ids).toList :=
    notMem_condition (by decide) (by decide) (by decide) ids
  have hmark : '!' ∉ (Switch.condition ids).toList :=
    notMem_condition (by decide) (by decide) (by decide) ids
  simp [ne_of_mem_of_not_mem hc hline, ne_of_mem_of_not_mem hc hmark]

/-- A switch between steady templates is written as one. -/
theorem render {s : Switch} (h : ∀ t ∈ s.templates, Steady t) : Steady s.render := by
  have hotherwise : Steady s.otherwise := h _ (List.mem_append_right _ List.mem_cons_self)
  by_cases hb : s.branches = []
  · rwa [Switch.render_of_nil hb]
  · refine ⟨Switch.selfContained_render fun t ht => (h t ht).selfContained, ?_, ?_⟩ <;>
      rw [Switch.toList_render hb, chooseText]
    · have hbranches : ((s.branches.map fun b => ((Switch.condition b.1).toList, b.2.toList)).flatMap
          branchText).all (fun c => c != '\n' && c != '!') := by
        rw [List.all_flatMap, List.all_map, List.all_eq_true]
        intro b hm
        have ht := (h b.2 (List.mem_append_left _ (List.mem_map_of_mem hm))).line
        simp only [Function.comp_apply, branchText, whenContent, List.all_append, List.all_cons,
          line_condition, ht]
        decide
      simp only [otherwiseText, List.all_append, List.all_cons, hbranches, hotherwise.line]
      decide
    · rw [List.getLast?_concat]
      rfl

end Steady

/-- Where all styles show steady templates, those of the board are steady. -/
theorem steady_boardSwitch {o : Options} {styles : List StyleRow} {d : Directive} (hd : d ∈ catalog)
    (h : ∀ s ∈ latest (styles.map StyleRow.toSource), Steady (s.shown {} boardNormalizer (boardCheck o) d)) :
    Steady (boardSwitch o styles d).render := by
  refine .render fun t ht => ?_
  rcases mem_templates_switchFor ht with rfl | ⟨s, hs, rfl⟩
  · rw [fallback_eq hd]
    exact steady_catalog hd
  · rw [choose_extract _ _ _ s hd]
    exact h s hs

end BoardMarkup.Board
