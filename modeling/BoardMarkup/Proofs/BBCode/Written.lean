import BoardMarkup.Proofs.BBCode.Declaration
import BoardMarkup.Proofs.BBCode.TagName
import BoardMarkup.Proofs.Text.Split

/-! Usages as they are written, and what is read back from them. -/
namespace BoardMarkup.BBCode

open Text

/-- A declaration of a token: the parameter is written behind `=`, each option behind `;`. -/
structure Clause where
  id : List Char
  param : Option (List Char) := none
  options : List (List Char) := []
  isId : IsTokenId id
  bareParam : ∀ p ∈ param, ';' ∉ p ∧ '}' ∉ p := by simp
  bareOptions : ∀ o ∈ options, o ≠ [] ∧ ';' ∉ o ∧ '}' ∉ o := by simp

namespace Clause

variable (c : Clause)

def optionText : List Char := c.options.flatMap (';' :: ·)

def extra : List Char := c.param.elim [] ('=' :: ·) ++ c.optionText

def text : List Char := '{' :: (c.id ++ c.extra) ++ ['}']

def token : Token := ⟨String.ofList c.id, c.param.map String.ofList, c.options.map String.ofList⟩

def values : List (List Char) := c.param.toList ++ c.options

/-- The pattern of a `PARSE` token, which is all that stands behind `=`. -/
def rule? : Option String :=
  if c.id = parseId then c.param.map fun p => String.ofList (p ++ c.optionText) else none

private theorem notMem_optionText : '}' ∉ c.optionText := by
  rw [optionText, List.mem_flatMap]
  rintro ⟨o, ho, hm⟩
  rcases List.mem_cons.1 hm with he | hm
  · cases he
  · exact (c.bareOptions o ho).2.2 hm

theorem isDeclaration : IsDeclaration (c.id, c.extra) where
  id := c.isId
  mark := by
    rw [extra, optionText]
    cases c.param with
    | some p => exact .inr (.inr rfl)
    | none =>
      cases c.options with
      | nil => exact .inl rfl
      | cons o os => exact .inr (.inl rfl)
  unclosed := by
    rw [extra, List.mem_append, not_or]
    refine ⟨?_, c.notMem_optionText⟩
    cases hp : c.param with
    | none => exact List.not_mem_nil
    | some p => simpa using (c.bareParam p hp).2

theorem text_eq : c.text = declarationText (c.id, c.extra) := rfl

private theorem optionsOf_options : optionsOf c.options = c.options.map String.ofList := by
  rw [optionsOf, List.filter_eq_self.2 fun o ho => decide_eq_true (c.bareOptions o ho).1]

theorem ofDeclaration_extra : Token.ofDeclaration c.id c.extra = c.token := by
  have hbare : ∀ o ∈ c.options, ';' ∉ o := fun o ho => (c.bareOptions o ho).2.1
  rw [token, ← optionsOf_options, extra, optionText]
  cases hp : c.param with
  | some p =>
    have hsplit := split_append_flatMap (c.bareParam p hp).1 hbare
    simp only [Option.elim_some, List.cons_append, Token.ofDeclaration, hsplit, Option.map_some]
  | none =>
    cases ho : c.options with
    | nil => rfl
    | cons o os =>
      rw [ho] at hbare
      have hsplit := split_append_flatMap (hbare o (by simp)) fun p hm => hbare p (.tail _ hm)
      have hread : Token.ofDeclaration c.id (';' :: (o ++ os.flatMap (';' :: ·))) =
          ⟨String.ofList c.id, none, optionsOf (split ';' (o ++ os.flatMap (';' :: ·)))⟩ := rfl
      simp only [Option.elim_none, List.nil_append, List.flatMap_cons, List.cons_append, hread, hsplit,
        Option.map_none]

theorem ruleOf_extra : ruleOf (c.id, c.extra) = c.rule? := by
  rw [rule?, extra]
  cases c.param with
  | some p => rfl
  | none =>
    cases ho : c.options with
    | nil => simp [ruleOf, optionText, ho]
    | cons o os => simp [ruleOf, optionText, ho]

theorem findAll_givenTagName_optionText (first : List Char) (options : List (List Char)) :
    findAll givenTagName (first ++ options.flatMap (';' :: ·)) =
      findAll givenTagName first ++ options.flatMap (findAll givenTagName) := by
  induction options generalizing first with
  | nil => simp
  | cons o os ih =>
    rw [List.flatMap_cons, List.cons_append, findAll_givenTagName_append_cons (by decide) (by decide), ih,
      List.flatMap_cons]

theorem findAll_givenTagName_text (ys : List Char) :
    findAll givenTagName (c.text ++ ys) = c.values.flatMap (findAll givenTagName) ++
      findAll givenTagName ys := by
  have hid : '$' ∉ c.id := brace_notMem (tokenId?_self_iff.2 c.isId) (by decide)
  have hextra : findAll givenTagName c.extra = c.values.flatMap (findAll givenTagName) := by
    rw [extra, optionText, values]
    cases c.param with
    | none => simpa [findAll_nil] using findAll_givenTagName_optionText [] c.options
    | some p =>
      have hsign : findAll givenTagName (['='] ++ (p ++ c.options.flatMap (';' :: ·))) =
          findAll givenTagName (p ++ c.options.flatMap (';' :: ·)) := findAll_givenTagName_plain (by decide) _
      rw [Option.elim_some, List.cons_append]
      refine hsign.trans ?_
      rw [findAll_givenTagName_optionText, Option.toList_some, List.singleton_append, List.flatMap_cons]
  have hopen := findAll_givenTagName_append_cons (d := '{') (by decide) (by decide) []
    (c.id ++ c.extra ++ '}' :: ys)
  have htext : c.text ++ ys = [] ++ '{' :: (c.id ++ c.extra ++ '}' :: ys) := by simp [text]
  rw [htext, hopen, findAll_nil, List.nil_append,
    findAll_givenTagName_append_cons (d := '}') (by decide) (by decide), findAll_givenTagName_plain hid,
      hextra]

end Clause

/-- A text between declarations, which neither begins one nor gives a name to the tag. -/
structure Filler where
  text : List Char
  plain : '{' ∉ text := by decide
  nameless : ¬ tagNameSign <:+: text := by decide

structure WrittenUsage where
  name : List Char
  lead : Filler
  parts : List (Clause × Filler)
  isName : IsName name
  endsName : EndsName lead.text

namespace WrittenUsage

def tailText (parts : List (Clause × Filler)) : List Char := parts.flatMap fun p => p.1.text ++ p.2.text

variable (w : WrittenUsage)

def text : String := String.ofList ('[' :: w.name ++ (w.lead.text ++ tailText w.parts))

def clauses : List Clause := w.parts.map (·.1)

def values : List (List Char) := w.clauses.flatMap Clause.values

def declared : List Token := (w.clauses.filter (·.id ≠ parseId)).map Clause.token

theorem toList_text : w.text.toList = '[' :: w.name ++ (w.lead.text ++ tailText w.parts) :=
  String.toList_ofList

section Parts

variable (parts : List (Clause × Filler))

theorem tailText_cons (p : Clause × Filler) :
    tailText (p :: parts) = p.1.text ++ (p.2.text ++ tailText parts) := by
  rw [tailText, List.flatMap_cons, List.append_assoc, tailText]

theorem tailText_eq : parts = [] ∨ ∃ cs, tailText parts = '{' :: cs := by
  cases parts with
  | nil => exact .inl rfl
  | cons p parts => exact .inr ⟨_, by rw [tailText_cons, Clause.text, List.cons_append, List.cons_append]⟩

theorem findAll_declaration_tailText :
    findAll declaration (tailText parts) = parts.map fun p => (p.1.id, p.1.extra) := by
  induction parts with
  | nil => rfl
  | cons p parts ih =>
    rw [tailText_cons, Clause.text_eq, findAll_declarationText p.1.isDeclaration,
      findAll_declaration_plain p.2.plain, ih, List.map_cons]

/-- Nothing in a filler gives a name, also not together with what is declared behind it. -/
theorem findAll_givenTagName_filler (f : Filler) :
    findAll givenTagName (f.text ++ tailText parts) = findAll givenTagName (tailText parts) := by
  have hnone : findAll givenTagName f.text = [] := by
    rw [findAll_givenTagName_eq_nil_iff]
    rintro ⟨before, first, rest, he, -⟩
    exact f.nameless ⟨before, first :: rest, he.symm⟩
  rcases tailText_eq parts with rfl | ⟨cs, hcs⟩
  · rw [tailText, List.flatMap_nil, List.append_nil, hnone, findAll_nil]
  · have hopen : findAll givenTagName (['{'] ++ cs) = findAll givenTagName cs :=
      findAll_givenTagName_plain (by decide) cs
    rw [hcs, findAll_givenTagName_append_cons (by decide) (by decide), hnone, List.nil_append]
    exact hopen.symm

theorem findAll_givenTagName_tailText :
    findAll givenTagName (tailText parts) =
      parts.flatMap fun p => p.1.values.flatMap (findAll givenTagName) := by
  induction parts with
  | nil => rfl
  | cons p parts ih =>
    rw [tailText_cons, Clause.findAll_givenTagName_text, findAll_givenTagName_filler, ih, List.flatMap_cons]

end Parts

theorem notMem_of_not_isTagNameChar {c : Char} (hc : isTagNameChar c = false) (hopen : c ≠ '[') :
    c ∉ '[' :: w.name := by
  rw [List.mem_cons, not_or]
  refine ⟨hopen, fun hm => ?_⟩
  rw [isTagNameChar_of_mem_name w.isName hm] at hc
  cases hc

theorem header?_text : header? (bodyOf w.text) = some w.name := by
  refine header?_bodyOf w.isName ?_ w.toList_text
  intro c hc
  cases hl : w.lead.text with
  | cons d ds =>
    rw [hl] at hc
    exact w.endsName c (by rw [hl]; exact hc)
  | nil =>
    rw [hl, List.nil_append] at hc
    rcases tailText_eq w.parts with hp | ⟨cs, hcs⟩
    · rw [hp] at hc
      cases hc
    · rw [hcs] at hc
      cases hc
      decide

theorem findAll_declaration_text :
    findAll declaration (bodyOf w.text) = w.clauses.map fun c => (c.id, c.extra) := by
  have hname : '{' ∉ '[' :: w.name := w.notMem_of_not_isTagNameChar (by decide) (by decide)
  rw [findAll_declaration_bodyOf, toList_text, findAll_declaration_plain hname,
    findAll_declaration_plain w.lead.plain, findAll_declaration_tailText, clauses, List.map_map]
  rfl

theorem findAll_givenTagName_text :
    findAll givenTagName (bodyOf w.text) = w.values.flatMap (findAll givenTagName) := by
  have hname : '$' ∉ '[' :: w.name := w.notMem_of_not_isTagNameChar (by decide) (by decide)
  rw [findAll_givenTagName_bodyOf, toList_text, findAll_givenTagName_plain hname, findAll_givenTagName_filler,
    findAll_givenTagName_tailText, values, clauses, List.flatMap_assoc, List.flatMap_map]

/-- The name that a text gives to the tag: the one behind the first sign that a name follows. -/
def tagNameIn (cs : List Char) : Option (List Char) := (findAll givenTagName cs).head?

theorem tagNameIn_eq_none_iff {cs : List Char} : tagNameIn cs = none ↔ ¬ GivesTagName cs := by
  rw [tagNameIn, List.head?_eq_none_iff, findAll_givenTagName_eq_nil_iff]

theorem tagNameOf_text :
    tagNameOf w.name (bodyOf w.text) = (w.values.findSome? tagNameIn).getD w.name := by
  rw [tagNameOf, findAll_givenTagName_text, List.head?_flatMap]
  rfl

private theorem tagNameOf_ne_asterisk : (tagNameOf w.name (bodyOf w.text)).map Char.toUpper ≠ ['*'] := by
  have hstart : ∃ first rest, tagNameOf w.name (bodyOf w.text) = first :: rest ∧
      startsTagName first = true := by
    rw [tagNameOf]
    cases hfound : findAll givenTagName (bodyOf w.text) with
    | nil =>
      obtain ⟨first, rest, hname, hfirst, -⟩ := w.isName
      exact ⟨first, rest, hname, by rw [startsTagName, hfirst, Bool.true_or]⟩
    | cons given more =>
      have hgiven : given ∈ findAll givenTagName (bodyOf w.text) := by simp [hfound]
      obtain ⟨before, cs, n, he⟩ := exists_of_mem_findAll hgiven
      obtain ⟨first, rest, -, hfirst, rfl, -⟩ := givenTagName_eq_some_iff.1 he
      exact ⟨first, _, rfl, hfirst⟩
  obtain ⟨first, rest, hname, hfirst⟩ := hstart
  rw [hname, List.map_cons]
  exact fun he => toUpper_ne_asterisk hfirst (List.cons.inj he).1

private theorem tokens_text :
    (declarationsOf (bodyOf w.text)).map (fun d => Token.ofDeclaration d.1 d.2) = w.declared := by
  rw [declarationsOf, findAll_declaration_text, declared, List.filter_map, List.map_map]
  exact List.map_congr_left fun c _ => c.ofDeclaration_extra

/-- A usage is read as it is written. -/
theorem parse?_text : ∃ u, Usage.parse? w.text = .ok u ∧
    u.name = upper (String.ofList w.name) ∧
    u.tagName = upper (String.ofList ((w.values.findSome? tagNameIn).getD w.name)) ∧
    ((∀ v ∈ w.values, ¬ GivesTagName v) → u.tagName = u.name) ∧
    u.tokens = (w.declared.map (·.id)).eraseDups.map (joined w.declared) ∧
    u.parseRules = w.clauses.filterMap Clause.rule? := by
  obtain ⟨u, hu⟩ := exists_parse?_eq_ok w.header?_text w.tagNameOf_ne_asterisk
  obtain ⟨name, hheader, hname, htag, htokens⟩ := parse?_spec hu
  obtain ⟨hrules, -⟩ := parse?_rules hu
  cases hheader.symm.trans w.header?_text
  rw [tagNameOf_text] at htag
  refine ⟨u, hu, ?_, ?_, fun hnone => ?_, ?_, ?_⟩
  · rw [hname, upper_ofList]
  · rw [htag, upper_ofList]
  · have hgiven : w.values.findSome? tagNameIn = none :=
      List.findSome?_eq_none_iff.2 fun v hv => tagNameIn_eq_none_iff.2 (hnone v hv)
    rw [htag, hname, hgiven, Option.getD_none]
  · rw [htokens, tokens_text, foldl_addToken_eq]
  · rw [hrules, findAll_declaration_text, List.filterMap_map]
    exact congrArg (List.filterMap · _) (funext Clause.ruleOf_extra)

end WrittenUsage

/-- A usage with the sign of a tag name in a parameter. -/
def renamed : WrittenUsage where
  name := ['b']
  lead := { text := [']'] }
  parts := [({
    id := ['T', 'E', 'X', 'T']
    param := some (tagNameSign ++ ['x'])
    isId := ⟨'T', ['E', 'X', 'T'], [], rfl, rfl, by simp, by simp⟩
    bareParam := by simp [tagNameSign] }, { text := ['[', '/', 'b', ']'] })]
  isName := ⟨'b', [], rfl, rfl, by simp⟩
  endsName := by
    intro c hc
    cases hc
    decide

/-- The tag takes its name from a parameter also where the usage around the declarations gives it none. -/
theorem parameter_names_tag : renamed.text = "[b]{TEXT=$tagName=x}[/b]" ∧
    ∃ u, Usage.parse? renamed.text = .ok u ∧ u.name = upper (String.ofList renamed.name) ∧
      u.tagName ≠ upper (String.ofList renamed.name) := by
  have hread : Usage.parse? renamed.text =
      .ok ⟨"B", "X", [⟨"TEXT", some "$tagName=x", []⟩], [], "[b]{TEXT=$tagName=x}[/b]"⟩ := by decide +kernel
  exact ⟨by decide +kernel, _, hread, by decide +kernel, by decide +kernel⟩

end BoardMarkup.BBCode
