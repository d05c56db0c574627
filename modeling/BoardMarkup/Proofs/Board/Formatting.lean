import BoardMarkup.Proofs.Board.Repetition
import BoardMarkup.Proofs.Style.Merging
import Mathlib.Logic.Relation

/-! Templates that differ in their formatting alone, which are one template on a board. -/
namespace BoardMarkup.Board

open Style Text

/-- Blanks with a line break put between two tags of a template, of which the first is not `<xsl:text>`. -/
inductive Spread : String → String → Prop
  | intro (start run rest : String) (blank : ∀ c ∈ run.toList, isMarkupBlank c) (line : '\n' ∈ run.toList)
      (tag : ¬ "<xsl:text>".toList <:+ (start ++ ">").toList) :
      Spread (start ++ "><" ++ rest) (start ++ ">" ++ run ++ "<" ++ rest)

/-- Between the tags neither the blanks at the ends nor those elsewhere make a difference. -/
theorem squeeze_strip_run {start run : List Char} (hblank : ∀ c ∈ run, isMarkupBlank c) (hline : '\n' ∈ run)
    (htag : ¬ "<xsl:text>".toList <:+ start ++ ['>']) (rest : List Char) :
    squeeze [] (stripWhile isBlank (start ++ '>' :: (run ++ '<' :: rest))) =
      squeeze [] (stripWhile isBlank (start ++ '>' :: '<' :: rest)) := by
  have hstrip : ∀ run, stripWhile isBlank (start ++ '>' :: (run ++ '<' :: rest)) =
      start.dropWhile isBlank ++ '>' :: (run ++ '<' :: dropEndWhile isBlank rest) := fun run => by
    rw [stripWhile_append_cons (by decide), dropEndWhile_append_cons (by decide)]
  have hopen : after? textTag ('>' :: ((start.dropWhile isBlank).reverse ++ [])) = none := by
    have hbehind : '>' :: ((start.dropWhile isBlank).reverse ++ []) =
        (start.dropWhile isBlank ++ ['>']).reverse := by simp
    rw [hbehind, after?_textTag_reverse_eq_none_iff]
    intro h
    obtain ⟨blanks, hblanks⟩ := List.dropWhile_suffix (l := start) isBlank
    exact htag (h.trans ⟨blanks, by rw [← List.append_assoc, hblanks]⟩)
  calc squeeze [] (stripWhile isBlank (start ++ '>' :: (run ++ '<' :: rest)))
      = squeeze [] (start.dropWhile isBlank ++ ['>']) ++ squeeze [] ('<' :: dropEndWhile isBlank rest) := by
        rw [hstrip run, squeeze_append_cons (by decide), squeeze_space hblank rfl hline hopen]
    _ = squeeze [] (stripWhile isBlank (start ++ '>' :: '<' :: rest)) := by
        rw [← List.nil_append ('<' :: rest), hstrip [], List.nil_append,
          squeeze_append_cons (by decide) [] _ ('<' :: _)]
        exact congrArg (squeeze [] _ ++ ·) (squeeze_less_eq [] _ _)

theorem normalize_run {start run : String} (hblank : ∀ c ∈ run.toList, isMarkupBlank c)
    (hline : '\n' ∈ run.toList) (htag : ¬ "<xsl:text>".toList <:+ (start ++ ">").toList) (rest : String) :
    boardNormalizer.normalize (start ++ ">" ++ run ++ "<" ++ rest) =
      boardNormalizer.normalize (start ++ "><" ++ rest) := by
  have hgt : ">".toList = ['>'] := String.toList_ofList
  have hless : "<".toList = ['<'] := String.toList_ofList
  have hboth : "><".toList = ['>', '<'] := String.toList_ofList
  have hspread : (start ++ ">" ++ run ++ "<" ++ rest).toList =
      start.toList ++ '>' :: (run.toList ++ '<' :: rest.toList) := by
    simp [hgt, hless]
  have hclose : (start ++ "><" ++ rest).toList = start.toList ++ '>' :: '<' :: rest.toList := by
    simp [hboth]
  rw [String.toList_append, hgt] at htag
  rw [← String.toList_inj, toList_normalize_board, toList_normalize_board, hspread, hclose,
    squeeze_strip_run hblank hline htag]

private theorem normalize_of_eqvGen {s t : String} (h : Relation.EqvGen Spread s t) :
    boardNormalizer.normalize s = boardNormalizer.normalize t := by
  induction h with
  | rel s t h =>
    obtain ⟨start, run, rest, hblank, hline, htag⟩ := h
    exact (normalize_run hblank hline htag rest).symm
  | refl s => rfl
  | symm s t _ ih => exact ih.symm
  | trans s t u _ _ ihs iht => exact ihs.trans iht

/--
Blanks with a line break between two tags make no difference on a board, unless the first of the tags is
`<xsl:text>`. However many of them are put into the templates of the styles or taken away, all styles get one
template and there is no switch.
-/
theorem formatting_splits_no_styles :
    (∀ start run rest : String, (∀ c ∈ run.toList, isMarkupBlank c) → '\n' ∈ run.toList →
      ¬ "<xsl:text>".toList <:+ (start ++ ">").toList →
      boardNormalizer.normalize (start ++ ">" ++ run ++ "<" ++ rest) =
        boardNormalizer.normalize (start ++ "><" ++ rest)) ∧
    ∀ (t : String) (templates : List (StyleId × String)), templates ≠ [] →
      (∀ p ∈ templates, Relation.EqvGen Spread t p.2) →
      (∀ p ∈ templates, boardNormalizer.normalize p.2 = boardNormalizer.normalize t) ∧
        merge? (templates.map fun p => (p.1, boardNormalizer.normalize p.2)) =
          some (boardNormalizer.normalize t) := by
  refine ⟨fun start run rest hblank hline htag => normalize_run hblank hline htag rest, ?_⟩
  intro t templates hne h
  have hsame : ∀ p ∈ templates, boardNormalizer.normalize p.2 = boardNormalizer.normalize t :=
    fun p hp => (normalize_of_eqvGen (h p hp)).symm
  refine ⟨hsame, merge?_of_common (by simpa using hne) fun q hq => ?_⟩
  obtain ⟨p, hp, rfl⟩ := List.mem_map.1 hq
  exact hsame p hp

def spreadLists : List (StyleId × String) :=
  [(1, "<ul><li/></ul>"), (2, "<ul>\n\t<li/></ul>"), (3, "<ul>\n\t<li/>\r\n</ul>")]

theorem spread_first : Spread "<ul><li/></ul>" "<ul>\n\t<li/></ul>" := by
  have hstart : "<ul><li/></ul>" = "<ul" ++ "><" ++ "li/></ul>" := by decide +kernel
  have hend : "<ul>\n\t<li/></ul>" = "<ul" ++ ">" ++ "\n\t" ++ "<" ++ "li/></ul>" := by decide +kernel
  rw [hstart, hend]
  exact .intro _ _ _ (List.all_eq_true.1 (by decide +kernel)) (by decide +kernel) (by decide +kernel)

private theorem spread_second : Spread "<ul>\n\t<li/></ul>" "<ul>\n\t<li/>\r\n</ul>" := by
  have hstart : "<ul>\n\t<li/></ul>" = "<ul>\n\t<li/" ++ "><" ++ "/ul>" := by decide +kernel
  have hend : "<ul>\n\t<li/>\r\n</ul>" = "<ul>\n\t<li/" ++ ">" ++ "\r\n" ++ "<" ++ "/ul>" := by decide +kernel
  rw [hstart, hend]
  exact .intro _ _ _ (List.all_eq_true.1 (by decide +kernel)) (by decide +kernel) (by decide +kernel)

theorem formatting_splits_no_lists :
    boardNormalizer.normalize ("<ul" ++ ">" ++ "\n\t" ++ "<" ++ "li/></ul>") =
      boardNormalizer.normalize ("<ul" ++ "><" ++ "li/></ul>") ∧
    spreadLists ≠ [] ∧ (∀ p ∈ spreadLists, Relation.EqvGen Spread "<ul><li/></ul>" p.2) ∧
    merge? (spreadLists.map fun p => (p.1, boardNormalizer.normalize p.2)) = some "<ul><li/></ul>" := by
  have hrun := formatting_splits_no_styles.1 "<ul" "\n\t" "li/></ul>" (List.all_eq_true.1 (by decide +kernel))
    (by decide +kernel) (by decide +kernel)
  have hall : ∀ p ∈ spreadLists, Relation.EqvGen Spread "<ul><li/></ul>" p.2 := by
    simp only [spreadLists, List.forall_mem_cons]
    exact ⟨.refl _, .rel _ _ spread_first,
      .trans _ _ _ (.rel _ _ spread_first) (.rel _ _ spread_second), by simp⟩
  have hline : boardNormalizer.normalize "<ul><li/></ul>" = "<ul><li/></ul>" :=
    normalize_eq_self (by decide +kernel) (by decide +kernel)
  have hmerge := (formatting_splits_no_styles.2 "<ul><li/></ul>" spreadLists (by decide) hall).2
  rw [hline] at hmerge
  exact ⟨hrun, by decide, hall, hmerge⟩

end BoardMarkup.Board
