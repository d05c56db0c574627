import BoardMarkup.Proofs.Board.Entity
import BoardMarkup.Proofs.Board.Furnish
import BoardMarkup.Proofs.Markup.Forest

/-! The images of smilies: whatever a row holds stays in the attribute it was written for. -/
namespace BoardMarkup.Formatter

def emoticon? (f : Formatter) (code : String) : Option String := f.emoticons.bind (·.entries.get? code)

@[simp] theorem emoticon?_addEmoticon (f : Formatter) (code other template : String) :
    (f.addEmoticon code template).emoticon? other =
      if other = code then some template else f.emoticon? other := by
  cases h : f.emoticons with
  | none => simp [emoticon?, addEmoticon, h]
  | some e => simp [emoticon?, addEmoticon, h]

end BoardMarkup.Formatter

namespace BoardMarkup.Board

open Markup Text

/--
A template that is one empty image element. Its attributes are the class of smilies and the three that
are given here without their entities, and no others.
-/
def IsSmiley (source alt title : String) (template : String) : Prop :=
  ∃ content, template.toList = '<' :: content ++ ['/', '>'] ∧
    scan .text template.toList = ([.empty content], .text) ∧ elementName content = "img".toList ∧
    (Markup.attributes content).2 = none ∧
    (Markup.attributes content).1.map
      (fun a => (String.ofList a.name, unescapeHtml (String.ofList a.value))) =
      [("class", "smilies"), ("src", source), ("alt", alt), ("title", title)]

namespace SmileyRow

variable (r : SmileyRow)

def tag : Tag where
  name := .ofChars 'i' ['m', 'g'] (by decide)
  attributes := [
    ⟨.ofChars 'c' ['l', 'a', 's', 's'] (by decide), "smilies".toList, by decide⟩,
    ⟨.ofChars 's' ['r', 'c'] (by decide), "\x7b$T_SMILIES_PATH\x7d/".toList ++ (escapeHtml r.url).toList, by
      simp [quote_notMem_escapeHtml]⟩,
    ⟨.ofChars 'a' ['l', 't'] (by decide), "\x7b.\x7d".toList, by decide⟩,
    ⟨.ofChars 't' ['i', 't', 'l', 'e'] (by decide), (escapeHtml r.emotion).toList,
      quote_notMem_escapeHtml r.emotion⟩]
  distinct := by simp

theorem toList_template : r.template.toList = '<' :: r.tag.content ++ ['/', '>'] := by
  have htext : r.template = "<img class=\"smilies\" src=\"\x7b$T_SMILIES_PATH\x7d/" ++ escapeHtml r.url ++
      "\" alt=\"\x7b.\x7d\" title=\"" ++ escapeHtml r.emotion ++ "\"/>" := rfl
  rw [htext]
  simp [tag, Tag.content, WrittenAttribute.text, QuotedAttribute.written]

private theorem harmless_of_mem {a : QuotedAttribute} (h : a ∈ r.tag.attributes) :
    Harmless a.name.text a.value := by
  have hnames : r.tag.attributes.map (·.name.text) =
      ["class".toList, "src".toList, "alt".toList, "title".toList] := by simp [tag]
  have hharmless : ∀ name ∈ ["class".toList, "src".toList, "alt".toList, "title".toList],
      name.map Char.toLower ≠ "disable-output-escaping".toList ∧ ¬ "on".toList <+: name.map Char.toLower := by
    decide
  obtain ⟨hescaping, hhandler⟩ := hharmless a.name.text (hnames ▸ List.mem_map_of_mem h)
  exact ⟨hescaping, fun hon => absurd hon hhandler⟩

theorem check_template : check true r.template = .ok () := by
  have hcontained : SelfContained true (Forest.empty r.tag .nil).write := by
    refine Forest.selfContained_write fun t ht => ?_
    obtain rfl := List.mem_singleton.1 ht
    exact r.tag.attributeProblem?_checked_iff.2 fun a ha => r.harmless_of_mem ha
  rw [Forest.write, Forest.write, List.append_nil, ← toList_template] at hcontained
  exact hcontained.check

theorem isSmiley_template :
    IsSmiley ("\x7b$T_SMILIES_PATH\x7d/" ++ r.url) "\x7b.\x7d" r.emotion r.template := by
  obtain ⟨hfault, hread⟩ := r.tag.attributes_content
  refine ⟨r.tag.content, r.toList_template, ?_, ?_, hfault, ?_⟩
  · rw [toList_template, Tag.scan_empty]
  · rw [Tag.elementName_content]
    simp [tag]
  · have hsource : unescapeHtml ("\x7b$T_SMILIES_PATH\x7d/" ++ escapeHtml r.url) =
        "\x7b$T_SMILIES_PATH\x7d/" ++ r.url := by
      rw [unescapeHtml_append (by decide), unescapeHtml_escapeHtml]
    have hplain : unescapeHtml "smilies" = "smilies" ∧ unescapeHtml "\x7b.\x7d" = "\x7b.\x7d" :=
      ⟨unescapeHtml_eq_self (by decide), unescapeHtml_eq_self (by decide)⟩
    calc (Markup.attributes r.tag.content).1.map
          (fun a => (String.ofList a.name, unescapeHtml (String.ofList a.value)))
      _ = ((Markup.attributes r.tag.content).1.map fun a => (a.name, a.value)).map
          (fun p => (String.ofList p.1, unescapeHtml (String.ofList p.2))) := by rw [List.map_map]; rfl
      _ = [("class", "smilies"), ("src", "\x7b$T_SMILIES_PATH\x7d/" ++ r.url), ("alt", "\x7b.\x7d"),
          ("title", r.emotion)] := by
        rw [hread]
        simp only [tag, List.map_cons, List.map_nil, Name.text_ofChars, String.ofList_append,
          String.ofList_toList, hsource, hplain, unescapeHtml_escapeHtml]

end SmileyRow

section Registered

variable (f : Formatter) (rows : List SmileyRow) (code : String)

private theorem emoticon?_foldl : (rows.foldl (fun f r => f.addEmoticon r.code r.template) f).emoticon? code =
    ((rows.reverse.find? (·.code == code)).map SmileyRow.template).or (f.emoticon? code) := by
  induction rows generalizing f with
  | nil => rfl
  | cons r rows ih =>
    rw [List.foldl_cons, ih, Formatter.emoticon?_addEmoticon, List.reverse_cons, List.find?_append]
    by_cases hr : code = r.code
    · simp [hr]
    · simp [hr, Ne.symm hr]

/-- The last row with a code gives it its image. -/
theorem emoticon?_addSmilies : (addSmilies f rows).emoticon? code =
    ((rows.reverse.find? (·.code == code)).map SmileyRow.template).or (f.emoticon? code) := by
  rw [← emoticon?_foldl, addSmilies]
  split
  · next h => rw [List.isEmpty_iff.1 h, List.foldl_nil]
  · rw [Formatter.emoticon?, Formatter.emoticon?, Option.bind_map]
    rfl

private theorem emoticon?_finish (words : List WordRow) :
    (finish f rows words).emoticon? code = (addSmilies f rows).emoticon? code := by
  unfold finish addWords
  split <;> rfl

end Registered

namespace Assembly

theorem emoticon?_finished (a : Assembly) (smilies : List SmileyRow) (words : List WordRow) (code : String) :
    (a.finished smilies words).formatter.emoticon? code = (addSmilies a.formatter smilies).emoticon? code :=
  emoticon?_finish a.formatter smilies code words

private theorem emoticons_withViewSwitches (a : Assembly) :
    a.withViewSwitches.formatter.emoticons = a.formatter.emoticons :=
  rfl

end Assembly

private theorem emoticons_directiveAssembly (o : Options) (styles : List StyleRow) :
    (directiveAssembly o styles).formatter.emoticons = none := by
  rw [directiveAssembly, Assembly.emoticons_withViewSwitches, addDirectives_eq,
    (Assembly.extends_defineAll _ _).emoticons]
  rfl

private theorem emoticon?_furnished (o : Options) (styles : List StyleRow) (bbcodes : List BBCodeRow)
    (smilies : List SmileyRow) (words : List WordRow) (code : String) :
    (furnished o styles bbcodes smilies words).formatter.emoticon? code =
      (smilies.reverse.find? (·.code == code)).map SmileyRow.template := by
  rw [furnished, Assembly.emoticon?_finished, emoticon?_addSmilies, Formatter.emoticon?,
    directiveAssembly_extends.emoticons, emoticons_directiveAssembly, Option.bind_none, Option.or_none]

/--
Every smiley of a board is one image whose address and text are those of its row, whatever characters
these have. Its template is accepted with the check for hazards.
-/
theorem smilies_stay_in_markup (o : Options) (styles : List StyleRow) (bbcodes : List BBCodeRow)
    (smilies : List SmileyRow) (words : List WordRow) :
    (∃ a, furnish o (.ofRows styles bbcodes smilies words) .new = .ok a ∧
      ∀ code, a.formatter.emoticon? code =
        (smilies.reverse.find? (·.code == code)).map SmileyRow.template) ∧
      ∀ r : SmileyRow, check true r.template = .ok () ∧
        IsSmiley ("\x7b$T_SMILIES_PATH\x7d/" ++ r.url) "\x7b.\x7d" r.emotion r.template := by
  constructor
  · have hregistered := emoticon?_furnished o styles bbcodes smilies words
    exact ⟨furnished o styles bbcodes smilies words, furnish_ofRows o styles bbcodes smilies words,
      hregistered⟩
  · intro r
    exact ⟨r.check_template, r.isSmiley_template⟩

end BoardMarkup.Board
