import BoardMarkup.Filter.Basic
import BoardMarkup.Proofs.BBCode.Joining
import Mathlib.Tactic.SplitIfs

/-! What a usage says, read from its characters. -/
namespace BoardMarkup.BBCode

open Text

def bodyOf (usage : String) : List Char := stripWhile isBlank usage.toList

def givenTagName : Finder (List Char) := fun _ cs => do
  match ← after? ['$', 't', 'a', 'g', 'N', 'a', 'm', 'e', '='] cs with
  | c :: rest =>
    if isLetter c || c == '_' then
      let name := c :: rest.takeWhile fun c => isLetter c || c.isDigit || c == '_' || c == ':'
      pure (name, 9 + name.length)
    else none
  | [] => none

theorem tagNameMark_eq : tagNameMark = givenTagName := by
  have hmark : "$tagName=".toList = ['$', 't', 'a', 'g', 'N', 'a', 'm', 'e', '='] :=
    String.toList_ofList
  unfold tagNameMark givenTagName
  exact hmark ▸ rfl

/-- The name of the tag, before it is put in upper case: the given one, or that of the BBCode. -/
def tagNameOf (name cs : List Char) : List Char := (findAll givenTagName cs).head?.getD name

def declarationsOf (cs : List Char) : List (List Char × List Char) :=
  (findAll declaration cs).filter (·.1 ≠ parseId)

theorem toUpper_not_lower (c : Char) : ¬ ('a'.val ≤ c.toUpper.val ∧ c.toUpper.val ≤ 'z'.val) := by
  unfold Char.toUpper
  split
  · next hc =>
    simp only [UInt32.le_iff_toNat_le] at hc ⊢
    simp at hc ⊢
    omega
  · assumption

theorem toUpper_toUpper (c : Char) : c.toUpper.toUpper = c.toUpper := by
  generalize hd : c.toUpper = d
  have hnot := toUpper_not_lower c
  rw [hd] at hnot
  unfold Char.toUpper
  exact dif_neg hnot

theorem upper_ofList (cs : List Char) : upper (String.ofList cs) = String.ofList (cs.map Char.toUpper) := by
  rw [upper, String.toList_ofList]

section Parse

variable {usage : String} {name : List Char}

private theorem ofList_eq_asterisk_iff (cs : List Char) : String.ofList cs = "*" ↔ cs = ['*'] :=
  String.ofList_inj

/-- A text is a usage when it begins with a name and the tag has a name of its own. -/
theorem exists_parse?_eq_ok (h : header? (bodyOf usage) = some name)
    (ht : (tagNameOf name (bodyOf usage)).map Char.toUpper ≠ ['*']) :
    ∃ u, Usage.parse? usage = .ok u := by
  unfold bodyOf at h
  rw [bodyOf, tagNameOf, ne_eq, ← ofList_eq_asterisk_iff, ← upper_ofList] at ht
  simp only [Usage.parse?, bind, Except.bind, h, tagNameMark_eq]
  cases hf : findAll givenTagName (stripWhile isBlank usage.toList) with
  | nil =>
    rw [hf] at ht
    exact ⟨_, if_neg ht⟩
  | cons given more =>
    rw [hf] at ht
    exact ⟨_, if_neg ht⟩

theorem parse?_spec {u : Usage} (hu : Usage.parse? usage = .ok u) :
    ∃ name, header? (bodyOf usage) = some name ∧ u.name = String.ofList (name.map Char.toUpper) ∧
      u.tagName = String.ofList ((tagNameOf name (bodyOf usage)).map Char.toUpper) ∧
      u.tokens = ((declarationsOf (bodyOf usage)).map fun d =>
        Token.ofDeclaration d.1 d.2).foldl addToken [] := by
  simp only [Usage.parse?, bind, Except.bind, tagNameMark_eq] at hu
  cases hh : header? (stripWhile isBlank usage.toList) with
  | none => simp [hh] at hu
  | some name =>
    refine ⟨name, hh, ?_⟩
    rw [bodyOf, tagNameOf, ← upper_ofList, ← upper_ofList]
    simp only [hh] at hu
    cases hf : findAll givenTagName (stripWhile isBlank usage.toList) with
    | nil =>
      simp only [hf] at hu
      split_ifs at hu
      cases hu
      exact ⟨rfl, rfl, rfl⟩
    | cons given more =>
      simp only [hf] at hu
      split_ifs at hu
      cases hu
      exact ⟨rfl, rfl, rfl⟩

def ruleOf : List Char × List Char → Option String
  | (id, '=' :: rule) => if id = parseId then some (String.ofList rule) else none
  | _ => none

theorem parse?_rules {u : Usage} (hu : Usage.parse? usage = .ok u) :
    u.parseRules = (findAll declaration (bodyOf usage)).filterMap ruleOf ∧
      u.source = String.ofList (bodyOf usage) := by
  simp only [Usage.parse?, bind, Except.bind] at hu
  cases hh : header? (stripWhile isBlank usage.toList) with
  | none => simp [hh] at hu
  | some name =>
    simp only [hh] at hu
    split_ifs at hu
    cases hu
    exact ⟨rfl, rfl⟩

end Parse

section Tokens

theorem any_id_foldl_addToken (ts : List Token) (id : String) :
    (ts.foldl addToken []).any (·.id == id) = ts.any (·.id == id) := by
  rw [foldl_addToken_eq, Bool.eq_iff_iff]
  simp [List.mem_eraseDups]

theorem mem_foldl_addToken {ts : List Token} {u : Token} (h : u ∈ ts.foldl addToken []) :
    (∃ t ∈ ts, t.id = u.id) ∧ ∀ o ∈ u.options, ∃ t ∈ ts, o ∈ t.options := by
  obtain ⟨hid, hu⟩ := mem_foldl_addToken_iff.1 h
  refine ⟨hid, fun o ho => ?_⟩
  rw [hu] at ho
  obtain ⟨t, ht, -, ho⟩ := mem_options_joined_iff.1 ho
  exact ⟨t, ht, ho⟩

end Tokens

section Needs

def optionsIn : List Char → List (List Char)
  | '=' :: rest => (split ';' rest).tail.filter (· ≠ [])
  | _ :: rest => (split ';' rest).filter (· ≠ [])
  | [] => []

theorem ofDeclaration_id (id extra : List Char) :
    (Token.ofDeclaration id extra).id = String.ofList id := by
  unfold Token.ofDeclaration
  split
  · split <;> rfl
  · rfl
  · rfl

theorem ofDeclaration_options (id extra : List Char) :
    (Token.ofDeclaration id extra).options = (optionsIn extra).map String.ofList := by
  unfold Token.ofDeclaration
  split
  · split
    · next h => simp only [optionsIn, h, List.tail_cons, optionsOf]
    · next h => simp [optionsIn, h]
  · next h => simp only [optionsIn, optionsOf]
  · rfl

def filtersIn (option : List Char) : List (List Char) :=
  match (after? ['p', 'r', 'e', 'F', 'i', 'l', 't', 'e', 'r', '='] option).or
    (after? ['p', 'o', 's', 't', 'F', 'i', 'l', 't', 'e', 'r', '='] option) with
  | some names => (split ',' names).filter (·.head? = some '#')
  | none => []

/-- The filters that a declaration asks for: that of the token's kind, and those named in its options. -/
def needsOf (d : List Char × List Char) : List (List Char) :=
  let kind := dropEndWhile Char.isDigit d.1
  (if kind ∈ [['A', 'N', 'Y', 'T', 'H', 'I', 'N', 'G'], ['P', 'A', 'R', 'S', 'E'], ['T', 'E', 'X', 'T']]
    then [] else ['#' :: kind.map Char.toLower]) ++ (optionsIn d.2).flatMap filtersIn

theorem mem_unfiltered_iff (kind : List Char) : String.ofList kind ∈ Filter.unfiltered ↔
    kind ∈ [['A', 'N', 'Y', 'T', 'H', 'I', 'N', 'G'], ['P', 'A', 'R', 'S', 'E'], ['T', 'E', 'X', 'T']] := by
  have hlist : Filter.unfiltered =
      [['A', 'N', 'Y', 'T', 'H', 'I', 'N', 'G'], ['P', 'A', 'R', 'S', 'E'], ['T', 'E', 'X', 'T']].map
        String.ofList := rfl
  rw [hlist, List.mem_map]
  exact ⟨fun ⟨cs, hcs, he⟩ => String.ofList_inj.1 he ▸ hcs, fun h => ⟨kind, h, rfl⟩⟩

theorem ofTokenId?_eq_some_iff {id : List Char} {n : String} :
    Filter.ofTokenId? (String.ofList id) = some n ↔
      String.ofList (dropEndWhile Char.isDigit id) ∉ Filter.unfiltered ∧
        n.toList = '#' :: (dropEndWhile Char.isDigit id).map Char.toLower := by
  have hmark : "#".toList = ['#'] := String.toList_ofList
  have hname : "#" ++ lower (String.ofList (dropEndWhile Char.isDigit id)) =
      String.ofList ('#' :: (dropEndWhile Char.isDigit id).map Char.toLower) := by
    rw [← String.toList_inj]
    simp [lower, hmark]
  simp only [Filter.ofTokenId?, String.toList_ofList, hname, List.contains_iff_mem]
  split
  · next hk => exact ⟨nofun, fun h => absurd hk h.1⟩
  · next hk =>
    rw [Option.some.injEq, and_iff_right hk]
    exact ⟨fun h => by rw [← h, String.toList_ofList], fun h => by rw [← h, String.ofList_toList]⟩

theorem mem_named_iff {t : Token} {n : String} :
    n ∈ Filter.named t ↔ ∃ o ∈ t.options, n.toList ∈ filtersIn o.toList := by
  have hpre : "preFilter=".toList = ['p', 'r', 'e', 'F', 'i', 'l', 't', 'e', 'r', '='] :=
    String.toList_ofList
  have hpost : "postFilter=".toList = ['p', 'o', 's', 't', 'F', 'i', 'l', 't', 'e', 'r', '='] :=
    String.toList_ofList
  simp only [Filter.named, Filter.optionValue?, hpre, hpost, List.mem_filter, List.mem_flatMap,
    List.mem_filterMap, List.mem_map, decide_eq_true_eq]
  constructor
  · rintro ⟨⟨names, ⟨o, ho, hn⟩, name, hname, rfl⟩, hhash⟩
    rw [String.toList_ofList] at hhash
    refine ⟨o, ho, ?_⟩
    rw [filtersIn, hn, String.toList_ofList]
    exact List.mem_filter.2 ⟨hname, by simpa using hhash⟩
  · rintro ⟨o, ho, hn⟩
    unfold filtersIn at hn
    split at hn
    · next names hnames =>
      obtain ⟨hname, hhash⟩ := List.mem_filter.1 hn
      exact ⟨⟨names, ⟨o, ho, hnames⟩, n.toList, hname, String.ofList_toList⟩, by simpa using hhash⟩
    · cases hn

theorem mem_needsOf_iff {d : List Char × List Char} {cs : List Char} : cs ∈ needsOf d ↔
    String.ofList (dropEndWhile Char.isDigit d.1) ∉ Filter.unfiltered ∧
        cs = '#' :: (dropEndWhile Char.isDigit d.1).map Char.toLower ∨
      ∃ o ∈ optionsIn d.2, cs ∈ filtersIn o := by
  rw [mem_unfiltered_iff]
  simp only [needsOf, List.mem_append, List.mem_flatMap]
  refine or_congr ?_ Iff.rfl
  split
  · next hk => exact ⟨nofun, fun h => absurd hk h.1⟩
  · next hk => rw [List.mem_singleton, and_iff_right hk]

variable {usage : String} {u : Usage}

theorem defines_eq (hu : Usage.parse? usage = .ok u) (id : List Char) :
    u.defines (String.ofList id) = (declarationsOf (bodyOf usage)).any (·.1 == id) := by
  obtain ⟨_, -, -, -, htokens⟩ := parse?_spec hu
  rw [Usage.defines, htokens, any_id_foldl_addToken, List.any_map]
  refine congrArg (List.any _) (funext fun d => ?_)
  rw [Function.comp_apply, ofDeclaration_id, Bool.eq_iff_iff, beq_iff_eq, beq_iff_eq,
    String.ofList_inj]

/-- A filter is required just where a declaration asks for it, whatever is joined with the declaration. -/
theorem mem_required_iff (hu : Usage.parse? usage = .ok u) {n : String} :
    n ∈ Filter.required u ↔ ∃ d ∈ declarationsOf (bodyOf usage), n.toList ∈ needsOf d := by
  obtain ⟨_, -, -, -, htokens⟩ := parse?_spec hu
  rw [Filter.required, List.mem_eraseDups, List.mem_flatMap, htokens]
  constructor
  · rintro ⟨t, ht, hn⟩
    obtain ⟨⟨v, hv, hid⟩, hoptions⟩ := mem_foldl_addToken ht
    rcases List.mem_append.1 hn with hn | hn
    · obtain ⟨d, hd, rfl⟩ := List.mem_map.1 hv
      rw [← hid, ofDeclaration_id, Option.mem_toList, ofTokenId?_eq_some_iff] at hn
      exact ⟨d, hd, mem_needsOf_iff.2 (.inl hn)⟩
    · obtain ⟨o, ho, hn⟩ := mem_named_iff.1 hn
      obtain ⟨w, hw, ho⟩ := hoptions o ho
      obtain ⟨d, hd, rfl⟩ := List.mem_map.1 hw
      rw [ofDeclaration_options] at ho
      obtain ⟨cs, hcs, rfl⟩ := List.mem_map.1 ho
      rw [String.toList_ofList] at hn
      exact ⟨d, hd, mem_needsOf_iff.2 (.inr ⟨cs, hcs, hn⟩)⟩
  · rintro ⟨d, hd, hn⟩
    have hmem : Token.ofDeclaration d.1 d.2 ∈
        (declarationsOf (bodyOf usage)).map fun d => Token.ofDeclaration d.1 d.2 := List.mem_map_of_mem hd
    -- what is joined has the id of the declaration, and all of its options
    refine ⟨_, joined_mem_foldl_addToken hmem, ?_⟩
    rw [List.mem_append, joined_id, ofDeclaration_id, Option.mem_toList, ofTokenId?_eq_some_iff,
      mem_named_iff]
    refine (mem_needsOf_iff.1 hn).imp_right ?_
    rintro ⟨o, ho, hn⟩
    refine ⟨String.ofList o, mem_options_joined_iff.2 ⟨_, hmem, ofDeclaration_id _ _, ?_⟩,
      by rwa [String.toList_ofList]⟩
    rw [ofDeclaration_options]
    exact List.mem_map_of_mem ho

end Needs

end BoardMarkup.BBCode
