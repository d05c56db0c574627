import BoardMarkup.Proofs.Board.Directives
import BoardMarkup.Proofs.Board.Words

/-! What becomes of the registered BBCodes and tags until a board's formatter is furnished. -/
namespace BoardMarkup.Board

open BBCode Markup Style

def Data.ofRows (styles : List StyleRow) (bbcodes : List BBCodeRow) (smilies : List SmileyRow)
    (words : List WordRow) : Data :=
  ⟨.ok styles, .ok bbcodes, .ok smilies, .ok words⟩

def Assembly.withViewSwitches (a : Assembly) : Assembly :=
  { a with formatter := addViewSwitches a.formatter }

/-- The assembly before the board's own BBCodes are added. -/
def directiveAssembly (o : Options) (styles : List StyleRow) : Assembly :=
  (addDirectives (configured o) styles).withViewSwitches

def customDefinitions (o : Options) (bbcodes : List BBCodeRow) : List (String × Template) :=
  bbcodes.map fun r => (r.usage, ⟨prefixLocalUrls o.boardUrl r.template, false⟩)

theorem addCustom_eq (o : Options) (a : Assembly) (bbcodes : List BBCodeRow) :
    addCustom o a bbcodes = a.defineAll (customDefinitions o bbcodes) := by
  rw [addCustom, Assembly.defineAll, customDefinitions, List.foldl_map]

/-- The settings that are made when all BBCodes are registered. -/
def finish (f : Formatter) (smilies : List SmileyRow) (words : List WordRow) : Formatter :=
  addLinks (addWords (addSmilies f smilies) words)

def Assembly.finished (a : Assembly) (smilies : List SmileyRow) (words : List WordRow) : Assembly :=
  { a with formatter := finish a.formatter smilies words }

def furnished (o : Options) (styles : List StyleRow) (bbcodes : List BBCodeRow)
    (smilies : List SmileyRow) (words : List WordRow) : Assembly :=
  ((directiveAssembly o styles).defineAll (customDefinitions o bbcodes)).finished smilies words

section Furnished

variable (o : Options) (styles : List StyleRow) (bbcodes : List BBCodeRow)
  (smilies : List SmileyRow) (words : List WordRow)

theorem furnish_ofRows : furnish o (.ofRows styles bbcodes smilies words) .new =
    .ok (furnished o styles bbcodes smilies words) := by
  rw [furnished, ← addCustom_eq]
  rfl

end Furnished

private theorem foldl_addEmoticon_frame (f : Formatter) (smilies : List SmileyRow) :
    ∃ emoticons, smilies.foldl (fun f r => f.addEmoticon r.code r.template) f = { f with emoticons } := by
  induction smilies generalizing f with
  | nil => exact ⟨_, rfl⟩
  | cons r smilies ih =>
    obtain ⟨emoticons, h⟩ := ih (f.addEmoticon r.code r.template)
    exact ⟨emoticons, h⟩

theorem addSmilies_frame (f : Formatter) (smilies : List SmileyRow) :
    ∃ emoticons, addSmilies f smilies = { f with emoticons } := by
  unfold addSmilies
  split
  · exact ⟨_, rfl⟩
  · obtain ⟨emoticons, h⟩ := foldl_addEmoticon_frame f smilies
    rw [h]
    exact ⟨_, rfl⟩

/-- Finishing a formatter leaves its BBCodes and settings, and adds no tag but that of the censor. -/
theorem finish_frame (f : Formatter) (smilies : List SmileyRow) (words : List WordRow) :
    ∃ emoticons autoemail autolink registeredVars,
      finish f smilies words = { f with emoticons, autoemail, autolink, registeredVars } ∨
        ∃ c : Censor.Plugin, c.tagName = censorTag ∧
          finish f smilies words = { f with
            emoticons, autoemail, autolink, registeredVars
            tags := f.tags.insert censorTag Censor.Plugin.tagTemplate
            censor := some c } := by
  obtain ⟨emoticons, he⟩ := addSmilies_frame f smilies
  rw [finish, he, addWords]
  split
  · exact ⟨emoticons, _, _, _, .inl rfl⟩
  · have htag := congrArg Censor.Plugin.tagName (foldl_add_words { tagName := censorTag } words)
    exact ⟨emoticons, _, _, _, .inr ⟨_, htag, rfl⟩⟩

theorem finish_bbcodes (f : Formatter) (smilies : List SmileyRow) (words : List WordRow) :
    (finish f smilies words).bbcodes = f.bbcodes := by
  obtain ⟨_, _, _, _, h | ⟨_, -, h⟩⟩ := finish_frame f smilies words <;> rw [h]

theorem get?_tags_finish (f : Formatter) (smilies : List SmileyRow) (words : List WordRow)
    {k : String} (hk : k ≠ censorTag) : (finish f smilies words).tags.get? k = f.tags.get? k := by
  obtain ⟨_, _, _, _, h | ⟨_, -, h⟩⟩ := finish_frame f smilies words <;> rw [h]
  simp [hk]

def shownTemplate (tag template : String) : String :=
  if tag = "FLASH" ∨ tag = "IMG" then viewSwitch tag template else template

theorem get?_tags_addViewSwitches (f : Formatter) (k : String) :
    (addViewSwitches f).tags.get? k = (f.tags.get? k).map (shownTemplate k) := by
  simp only [addViewSwitches, List.foldl_cons, List.foldl_nil, Table.get?_modify]
  by_cases himg : k = "IMG"
  · subst himg
    have hs : shownTemplate "IMG" = viewSwitch "IMG" := funext fun _ => if_pos (.inr rfl)
    simp [hs]
  · by_cases hflash : k = "FLASH"
    · subst hflash
      have hs : shownTemplate "FLASH" = viewSwitch "FLASH" := funext fun _ => if_pos (.inl rfl)
      simp [hs]
    · have hid : shownTemplate k = id := by
        funext t
        simp [shownTemplate, himg, hflash]
      simp [himg, hflash, hid]

namespace Assembly

theorem bbcodes_finished (a : Assembly) (smilies : List SmileyRow) (words : List WordRow) :
    (a.finished smilies words).formatter.bbcodes = a.formatter.bbcodes :=
  finish_bbcodes a.formatter smilies words

theorem get?_tags_finished (a : Assembly) (smilies : List SmileyRow) (words : List WordRow)
    {k : String} (hk : k ≠ censorTag) :
    (a.finished smilies words).formatter.tags.get? k = a.formatter.tags.get? k :=
  get?_tags_finish a.formatter smilies words hk

theorem skipped_finished (a : Assembly) (smilies : List SmileyRow) (words : List WordRow) :
    (a.finished smilies words).skipped = a.skipped := rfl

theorem bbcodes_withViewSwitches (a : Assembly) :
    a.withViewSwitches.formatter.bbcodes = a.formatter.bbcodes := rfl

theorem get?_tags_withViewSwitches (a : Assembly) (k : String) :
    a.withViewSwitches.formatter.tags.get? k = (a.formatter.tags.get? k).map (shownTemplate k) :=
  get?_tags_addViewSwitches a.formatter k

theorem skipped_withViewSwitches (a : Assembly) : a.withViewSwitches.skipped = a.skipped := rfl

end Assembly

section Furnished

variable {o : Options} {styles : List StyleRow} {bbcodes : List BBCodeRow}
  {smilies : List SmileyRow} {words : List WordRow}

theorem directiveAssembly_extends : (directiveAssembly o styles).Extends
    ((directiveAssembly o styles).defineAll (customDefinitions o bbcodes)) :=
  Assembly.extends_defineAll _ _

theorem get?_bbcodes_furnished {k : String} {u : Usage}
    (h : (directiveAssembly o styles).formatter.bbcodes.get? k = some u) :
    (furnished o styles bbcodes smilies words).formatter.bbcodes.get? k = some u := by
  rw [furnished, Assembly.bbcodes_finished]
  exact directiveAssembly_extends.bbcodes k u h

theorem get?_tags_furnished {k t : String} (hk : k ≠ censorTag)
    (h : (directiveAssembly o styles).formatter.tags.get? k = some t) :
    (furnished o styles bbcodes smilies words).formatter.tags.get? k = some t := by
  rw [furnished, Assembly.get?_tags_finished _ _ _ hk]
  exact directiveAssembly_extends.tags k t h

theorem mem_skipped_furnished {s : Skipped} (h : s ∈ (directiveAssembly o styles).skipped) :
    s ∈ (furnished o styles bbcodes smilies words).skipped := by
  rw [furnished, Assembly.skipped_finished]
  exact directiveAssembly_extends.mem_skipped h

theorem bbcodes_directiveAssembly : (directiveAssembly o styles).formatter.bbcodes =
    (addDirectives (configured o) styles).formatter.bbcodes := by
  rw [directiveAssembly, Assembly.bbcodes_withViewSwitches]

theorem get?_tags_directiveAssembly (k : String) :
    (directiveAssembly o styles).formatter.tags.get? k =
      ((addDirectives (configured o) styles).formatter.tags.get? k).map (shownTemplate k) := by
  rw [directiveAssembly, Assembly.get?_tags_withViewSwitches]

theorem skipped_directiveAssembly :
    (directiveAssembly o styles).skipped = (addDirectives (configured o) styles).skipped := by
  rw [directiveAssembly, Assembly.skipped_withViewSwitches]

end Furnished

private theorem upper_ne_censorTag {d : Directive} (h : d ∈ catalog) : upper d.name ≠ censorTag := by
  intro he
  have hm : upper d.name ∈ catalog.map fun d => upper d.name := List.mem_map_of_mem h
  rw [upper_catalog_names, he] at hm
  revert hm
  decide

/--
A directive is registered with its tag, whose template is the text of a switch between those of the styles,
just when these agree or all close what they open. A style shows its own override where the check accepts
it; one that is refused is replaced for this style alone and reported with its number.
-/
theorem furnish_registers_directives (o : Options) (styles : List StyleRow)
    (bbcodes : List BBCodeRow) (smilies : List SmileyRow) (words : List WordRow) :
    ∃ a, furnish o (.ofRows styles bbcodes smilies words) .new = .ok a ∧
      ∀ d ∈ catalog, ∃ u, Usage.parse? d.usage = .ok u ∧
        (Mergeable true (boardSwitch o styles d) →
          a.formatter.bbcodes.get? u.name = some u ∧
            a.formatter.tags.get? u.tagName =
              some (shownTemplate u.tagName (boardSwitch o styles d).render) ∧
            (boardSwitch o styles d).WrittenAs (boardSwitch o styles d).render) ∧
        (¬ Mergeable true (boardSwitch o styles d) →
          (directiveAssembly o styles).formatter.bbcodes.contains u.name = false ∧
            (directiveAssembly o styles).formatter.tags.contains u.tagName = false ∧
            ∃ outer ∈ holders, ⟨d.usage, none, .malformedTemplate u.name
              (.mismatched (String.ofList outer) (String.ofList wrapper))⟩ ∈ a.skipped) ∧
        ∀ s ∈ latest (styles.map StyleRow.toSource),
          (boardSwitch o styles d).evaluate s.id = s.shown {} boardNormalizer (boardCheck o) d ∧
            ∀ t e, (({} : MarkerSyntax).fragments s.document).recompose.get? d.name = some t →
              s.bitfield.isActive d.name = true →
                boardCheck o d (boardNormalizer.normalize t) = .error e →
                  (boardSwitch o styles d).evaluate s.id = d.template ∧
                    ⟨d.usage, some s.id, e⟩ ∈ a.skipped := by
  refine ⟨_, furnish_ofRows o styles bbcodes smilies words, fun d hd => ?_⟩
  obtain ⟨u, hu⟩ := exists_usage hd
  refine ⟨u, hu, fun hm => ?_, fun hm => ?_, fun s hs => ⟨evaluate_boardSwitch hd hs, ?_⟩⟩
  · obtain ⟨hname, htag⟩ := addDirectives_registers hd hu hm
    have htagName : u.tagName ≠ censorTag := by
      rw [(usage_names hd hu).2]
      exact upper_ne_censorTag hd
    rw [← bbcodes_directiveAssembly] at hname
    refine ⟨get?_bbcodes_furnished hname, get?_tags_furnished htagName ?_, Switch.writtenAs_render _⟩
    rw [get?_tags_directiveAssembly, htag, Option.map_some]
  · obtain ⟨hname, htag, outer, ho, hskipped⟩ := addDirectives_skips hd hu hm
    rw [← bbcodes_directiveAssembly] at hname
    rw [← skipped_directiveAssembly] at hskipped
    refine ⟨hname, ?_, outer, ho, mem_skipped_furnished hskipped⟩
    rw [Table.contains_eq_isSome] at htag ⊢
    rw [get?_tags_directiveAssembly, Option.isSome_map, htag]
  · intro t e ht hactive he
    obtain ⟨hshown, hskipped⟩ := refused_override hd hs ht hactive he
    rw [← skipped_directiveAssembly] at hskipped
    exact ⟨hshown, mem_skipped_furnished hskipped⟩

/-- Two templates that differ do not stand in one text if one of them closes what it has not opened. -/
theorem not_mergeable_of_shown {o : Options} {styles : List StyleRow} {d : Directive} (hd : d ∈ catalog)
    {s r : Source} (hs : s ∈ latest (styles.map StyleRow.toSource))
    (hr : r ∈ latest (styles.map StyleRow.toSource))
    (hne : s.shown {} boardNormalizer (boardCheck o) d ≠ r.shown {} boardNormalizer (boardCheck o) d)
    (hnot : ¬ SelfContained true (s.shown {} boardNormalizer (boardCheck o) d).toList) :
    ¬ Mergeable true (boardSwitch o styles d) := by
  rintro (hb | hall)
  · have hsr : (boardSwitch o styles d).evaluate s.id = (boardSwitch o styles d).evaluate r.id := by
      rw [Switch.evaluate, Switch.evaluate, hb]
      rfl
    rw [evaluate_boardSwitch hd hs, evaluate_boardSwitch hd hr] at hsr
    exact hne hsr
  · refine hnot (hall _ ?_)
    rw [← evaluate_boardSwitch hd hs]
    exact Switch.evaluate_mem_templates _ _

/-- A style with a template for bold text that closes the element around it. -/
def closingStyle : StyleRow :=
  ⟨1, "<!-- BEGIN b --></template><template><!-- END b -->", "QA=="⟩

def plainStyle : StyleRow := ⟨2, "", ""⟩

def bold : Directive := catalog[1]

theorem bold_mem : bold ∈ catalog := List.getElem_mem _

theorem recompose_closingStyle :
    (({} : MarkerSyntax).fragments closingStyle.toSource.document).recompose.get? bold.name =
      some "</template><template>" := by
  refine get?_recompose_of_get? bold_mem rfl ?_
  change (({} : MarkerSyntax).fragments
    "<!-- BEGIN b --></template><template><!-- END b -->").get? "b" = _
  decide +kernel

theorem toList_closing : "</template><template>".toList = ['<', '/', 't', 'e', 'm', 'p', 'l', 'a', 't',
    'e', '>', '<', 't', 'e', 'm', 'p', 'l', 'a', 't', 'e', '>'] := String.toList_ofList

theorem closing_not_selfContained : ¬ SelfContained true "</template><template>".toList := by
  rw [toList_closing]
  decide

private theorem normalize_closing :
    boardNormalizer.normalize "</template><template>" = "</template><template>" :=
  normalize_eq_self (by rw [toList_closing]; decide) (by rw [toList_closing]; decide)

private theorem boardCheck_closing (o : Options) : boardCheck o bold "</template><template>" = .ok () := by
  obtain ⟨u, hu⟩ := exists_usage bold_mem
  rw [boardCheck, check_eq_validate o bold_mem hu]
  refine validate_eq_ok_iff.2 ⟨fun id hid => ?_, check_eq_ok_iff _ _ |>.2 ?_⟩
  · rw [tokensOf, toList_closing] at hid
    cases hid
  · rw [toList_closing, wrapperEnd_eq, wrapper_eq]
    decide

theorem shown_closingStyle (o : Options) :
    closingStyle.toSource.shown {} boardNormalizer (boardCheck o) bold = "</template><template>" := by
  have hactive : closingStyle.toSource.bitfield.isActive bold.name = true := by
    have hb : closingStyle.toSource.bitfield = ⟨[64]⟩ := by decide +kernel
    rw [hb]
    decide
  simp only [Source.shown, recompose_closingStyle, normalize_closing, hactive, boardCheck_closing,
    Except.isOk, Except.toBool, and_self, if_true]

private theorem shown_plainStyle (o : Options) :
    plainStyle.toSource.shown {} boardNormalizer (boardCheck o) bold = bold.template := by
  have hf : (({} : MarkerSyntax).fragments plainStyle.toSource.document).entries = [] := by decide +kernel
  have hget : ∀ k, (({} : MarkerSyntax).fragments plainStyle.toSource.document).get? k = none :=
    fun k => by rw [Table.get?, hf]; rfl
  have hn : (({} : MarkerSyntax).fragments plainStyle.toSource.document).recompose.get? bold.name =
      none := by
    rw [get?_recompose _ bold_mem, Fragments.template?, Fragments.layOut?, hget, Fragments.wrap?, hget]
    rfl
  rw [Source.shown, hn]
  exact fallback_eq bold_mem

/-- On a board with such styles bold text is lost. -/
theorem closingStyle_loses_bold :
    ∃ a, furnish ⟨"cache", "parser", "renderer", "Renderer_", "http://localhost", "images/smilies"⟩
        (.ofRows [closingStyle, plainStyle] [] [] []) .new = .ok a ∧
      a.formatter.bbcodes.contains "B" = false := by
  refine ⟨_, furnish_ofRows _ [closingStyle, plainStyle] [] [] [], ?_⟩
  obtain ⟨u, hu⟩ := exists_usage bold_mem
  have hname : u.name = "B" := (usage_names bold_mem hu).1
  have hm : ¬ Mergeable true (boardSwitch ⟨"cache", "parser", "renderer", "Renderer_",
      "http://localhost", "images/smilies"⟩ [closingStyle, plainStyle] bold) := by
    refine not_mergeable_of_shown bold_mem (s := closingStyle.toSource) (r := plainStyle.toSource)
      List.mem_cons_self (List.mem_cons_of_mem _ List.mem_cons_self) ?_ ?_
    · rw [shown_closingStyle, shown_plainStyle]
      exact fun he => closing_not_selfContained
        (by rw [he]; exact catalog_selfContained bold bold_mem)
    · rw [shown_closingStyle]
      exact closing_not_selfContained
  rw [← hname, furnished, Assembly.bbcodes_finished, customDefinitions, List.map_nil,
    Assembly.defineAll, List.foldl_nil, bbcodes_directiveAssembly]
  exact (addDirectives_skips bold_mem hu hm).1

end BoardMarkup.Board
