import Mathlib.Data.List.Infix
import BoardMarkup.Proofs.Style.BraceFinder

/-! Which markup a list gets: the tests of its template, read as tests of its type. -/
namespace BoardMarkup.Style

open Text

/-- A test of the attributes of an element. -/
inductive Expression where
  | attribute (name : List Char)
  | literal (value : List Char)
  | not (e : Expression)
  | contains (text part : Expression)
  | substring (text : Expression) (start length : Nat)

abbrev Attributes := List Char → Option (List Char)

/-- What an expression stands for. Of a set of attributes only the first is ever read. -/
inductive Value where
  | nodes (first : Option (List Char))
  | boolean (b : Bool)
  | text (cs : List Char)

def Value.toBool : Value → Bool
  | .nodes first => first.isSome
  | .boolean b => b
  | .text cs => !cs.isEmpty

def Value.toText : Value → List Char
  | .nodes first => first.getD []
  | .boolean true => ['t', 'r', 'u', 'e']
  | .boolean false => ['f', 'a', 'l', 's', 'e']
  | .text cs => cs

/-- So many characters from a position on, where the first character has position one. -/
def charactersFrom (start length : Nat) (cs : List Char) : List Char :=
  ((cs.zipIdx 1).filter fun c => start ≤ c.2 ∧ c.2 < start + length).map (·.1)

namespace Expression

def eval (attributes : Attributes) : Expression → Value
  | .attribute name => .nodes (attributes name)
  | .literal value => .text value
  | .not e => .boolean !(e.eval attributes).toBool
  | .contains text part => .boolean ((part.eval attributes).toText <:+: (text.eval attributes).toText)
  | .substring text start length => .text (charactersFrom start length (text.eval attributes).toText)

def write : Expression → List Char
  | .attribute name => '@' :: name
  | .literal value => '\'' :: (value ++ ['\''])
  | .not e => ['n', 'o', 't', '('] ++ e.write ++ [')']
  | .contains text part =>
    ['c', 'o', 'n', 't', 'a', 'i', 'n', 's', '('] ++ text.write ++ ',' :: (part.write ++ [')'])
  | .substring text start length =>
    ['s', 'u', 'b', 's', 't', 'r', 'i', 'n', 'g', '('] ++ text.write ++
      ',' :: (Nat.toDigits 10 start ++ ',' :: (Nat.toDigits 10 length ++ [')']))

end Expression

/-- Texts under tests, of which the first that holds decides. -/
structure Choice where
  branches : List (Expression × List Char)
  otherwise : List Char

namespace Choice

def text (c : Choice) : List Char := chooseText (c.branches.map fun b => (b.1.write, b.2)) c.otherwise

def select (c : Choice) (attributes : Attributes) : List Char :=
  match c.branches.find? fun b => (b.1.eval attributes).toBool with
  | some b => b.2
  | none => c.otherwise

end Choice

def typeName : List Char := ['t', 'y', 'p', 'e']

def typeLetters : List Char := ['u', 'p', 'p', 'e', 'r', 'l', 'o', 'w', 'e', 'r', 'd', 'e', 'c', 'i', 'm']

/-- The choice between a list without a type, an ordered one and one with a marker. -/
def typeChoice (plain ordered marked : List Char) : Choice where
  branches := [
    (.not (.attribute typeName), plain),
    (.contains (.literal typeLetters) (.substring (.attribute typeName) 1 5), ordered)]
  otherwise := marked

private theorem map_filter_zipIdx (cs : List Char) (k n : Nat) :
    ((cs.zipIdx (k + 1)).filter fun c => 1 ≤ c.2 ∧ c.2 < 1 + (k + n)).map (·.1) = cs.take n := by
  induction cs generalizing k n with
  | nil => simp
  | cons c cs ih =>
    cases n with
    | zero =>
      rw [List.take_zero, List.map_eq_nil_iff, List.filter_eq_nil_iff]
      intro x hx
      have := List.le_snd_of_mem_zipIdx hx
      simp
      omega
    | succ n =>
      have hstep : 1 + (k + (n + 1)) = 1 + (k + 1 + n) := by omega
      rw [List.zipIdx_cons, List.filter_cons_of_pos (by simp; omega), List.map_cons, hstep, ih,
        List.take_succ_cons]

private theorem charactersFrom_one (n : Nat) (cs : List Char) : charactersFrom 1 n cs = cs.take n := by
  have h := map_filter_zipIdx cs 0 n
  rwa [Nat.zero_add, Nat.zero_add] at h

theorem select_typeChoice (plain ordered marked : List Char) (attributes : Attributes) :
    (typeChoice plain ordered marked).select attributes =
      match attributes typeName with
      | none => plain
      | some type => if type.take 5 <:+: typeLetters then ordered else marked := by
  cases h : attributes typeName with
  | none => simp [Choice.select, typeChoice, Expression.eval, Value.toBool, h]
  | some type =>
    simp only [Choice.select, typeChoice, Expression.eval, Value.toBool, Value.toText, h, charactersFrom_one,
      List.find?_cons, List.find?_nil, Option.isSome_some, Bool.not_true, Option.getD_some]
    split_ifs with hi <;> simp [hi]

def orderedStarts : List (List Char) :=
  [['u', 'p', 'p', 'e', 'r'], ['l', 'o', 'w', 'e', 'r'], ['d', 'e', 'c', 'i', 'm']]

/-- Five letters that stand in a row without being the start of a type. -/
def straddlingStarts : List (List Char) := [
  ['p', 'p', 'e', 'r', 'l'], ['p', 'e', 'r', 'l', 'o'], ['e', 'r', 'l', 'o', 'w'], ['r', 'l', 'o', 'w', 'e'],
  ['o', 'w', 'e', 'r', 'd'], ['w', 'e', 'r', 'd', 'e'], ['e', 'r', 'd', 'e', 'c'], ['r', 'd', 'e', 'c', 'i']]

private theorem mem_starts_iff {cs : List Char} (h : cs.length = 5) :
    cs ∈ orderedStarts ++ straddlingStarts ↔ cs <:+: typeLetters := by
  constructor
  · intro hm
    have hall : ∀ start ∈ orderedStarts ++ straddlingStarts, start <:+: typeLetters := by decide
    exact hall cs hm
  · rintro ⟨before, after, he⟩
    have hlength : before.length + 5 + after.length = 15 := by
      have := congrArg List.length he
      rwa [List.length_append, List.length_append, h] at this
    have hcs : cs = (typeLetters.drop before.length).take 5 := by
      rw [← he, List.append_assoc, List.drop_left, ← h, List.take_left]
    have hbound : before.length ≤ 10 := by omega
    have hall : ∀ k ≤ 10, (typeLetters.drop k).take 5 ∈ orderedStarts ++ straddlingStarts := by decide
    rw [hcs]
    exact hall _ hbound

/-- The lookup finds types with one of those starts, and shorter ones that stand among the letters. -/
theorem take_infix_typeLetters_iff (type : List Char) : type.take 5 <:+: typeLetters ↔
    (∃ start ∈ orderedStarts ++ straddlingStarts, start <+: type) ∨
      type.length < 5 ∧ type <:+: typeLetters := by
  have hlengths : ∀ start ∈ orderedStarts ++ straddlingStarts, start.length = 5 := by decide
  by_cases hshort : type.length < 5
  · rw [List.take_of_length_le (by omega)]
    constructor
    · exact fun h => .inr ⟨hshort, h⟩
    · rintro (⟨start, hm, hp⟩ | ⟨-, h⟩)
      · have := hp.length_le
        have := hlengths start hm
        omega
      · exact h
  · have hlength : (type.take 5).length = 5 := by
      rw [List.length_take]
      omega
    rw [← mem_starts_iff hlength]
    constructor
    · exact fun h => .inl ⟨type.take 5, h, List.take_prefix 5 type⟩
    · rintro (⟨start, hm, hp⟩ | ⟨h, -⟩)
      · rwa [← hlengths start hm, ← List.prefix_iff_eq_take.1 hp]
      · exact absurd h hshort

theorem braceFinder_of_sources {rs : Replacements}
    (h : ∀ r ∈ rs.items, ∃ rest, r.1.toList = '{' :: rest ∧ '<' ∉ rest) : BraceFinder rs.finder where
  contextFree := fun _ _ _ => rfl
  starts := by
    intro c hc cs
    rw [Replacements.finder, Option.map_eq_none_iff, List.find?_eq_none]
    intro r hr
    obtain ⟨rest, hrest, -⟩ := h r hr
    rw [hrest, after?_eq_none_of_head (Ne.symm hc)]
    simp
  stops := by
    intro xs ys
    have hsame : ∀ r ∈ rs.items,
      (after? r.1.toList (xs ++ '<' :: ys)).isSome = (after? r.1.toList xs).isSome := by
      intro r hr
      obtain ⟨rest, hrest, hless⟩ := h r hr
      exact after?_append_cons_isSome (by simp [hrest, hless]) xs ys
    rw [Replacements.finder, Replacements.finder]
    generalize rs.items = items at hsame
    induction items with
    | nil => rfl
    | cons r items ih =>
      rw [List.find?_cons, List.find?_cons, hsame r (by simp)]
      cases (after? r.1.toList xs).isSome with
      | true => rfl
      | false => exact ih fun s hs => hsame s (.tail _ hs)
  fits := by
    intro cs a n hf
    obtain ⟨r, hr, he⟩ := Option.map_eq_some_iff.1 hf
    obtain ⟨rest, hrest, -⟩ := h r (List.mem_of_find?_eq_some hr)
    have hsome : (after? r.1.toList cs).isSome := by simpa using List.find?_some hr
    obtain ⟨tail, htail⟩ := Option.isSome_iff_exists.1 hsome
    have hlength : n = r.1.toList.length := by
      rw [String.length_toList]
      exact (Prod.mk.inj he).2.symm
    rw [after?_eq_some_iff.1 htail, hlength, List.length_append, hrest, List.length_cons]
    omega

def listDirective : Directive := catalog[8]

theorem listDirective_mem : listDirective ∈ catalog := List.getElem_mem _

theorem braceFinder_listDirective : BraceFinder (Replacements.ofList listDirective.aliases).finder := by
  have hitems : (Replacements.ofList listDirective.aliases).items =
      [("\x7bLIST_TYPE\x7d", "\x7bHASHMAP\x7d")] := rfl
  refine braceFinder_of_sources fun r hr => ?_
  rw [hitems, List.mem_singleton] at hr
  rw [hr, String.toList_ofList]
  exact ⟨['L', 'I', 'S', 'T', '_', 'T', 'Y', 'P', 'E', '}'], rfl, by decide⟩

/-- The text that is assembled for lists is that of the choice. -/
theorem toList_listText (plain ordered marked : String) :
    ("<xsl:choose><xsl:when test=\"not(@type)\">" ++ plain ++
      "</xsl:when><xsl:when test=\"contains('upperlowerdecim',substring(@type,1,5))\">" ++ ordered ++
      "</xsl:when><xsl:otherwise>" ++ marked ++ "</xsl:otherwise></xsl:choose>").toList =
      (typeChoice plain.toList ordered.toList marked.toList).text := by
  have hplain : "<xsl:choose><xsl:when test=\"not(@type)\">".toList = '<' :: chooseContent ++ ['>'] ++
      ('<' :: whenContent (Expression.not (.attribute typeName)).write ++ ['>']) := String.toList_ofList
  have hordered : "</xsl:when><xsl:when test=\"contains('upperlowerdecim',substring(@type,1,5))\">".toList =
      ['<', '/', 'x', 's', 'l', ':', 'w', 'h', 'e', 'n', '>'] ++ ('<' :: whenContent
        (Expression.contains (.literal typeLetters) (.substring (.attribute typeName) 1 5)).write ++ ['>']) :=
    String.toList_ofList
  have hmarked : "</xsl:when><xsl:otherwise>".toList =
      ['<', '/', 'x', 's', 'l', ':', 'w', 'h', 'e', 'n', '>'] ++ ('<' :: otherwiseContent ++ ['>']) :=
    String.toList_ofList
  have hend : "</xsl:otherwise></xsl:choose>".toList =
      '<' :: '/' :: otherwiseContent ++ ['>'] ++ ('<' :: '/' :: chooseContent ++ ['>']) :=
        String.toList_ofList
  simp only [String.toList_append, hplain, hordered, hmarked, hend]
  simp [Choice.text, typeChoice, chooseText, branchText, otherwiseText]

/-- The five texts from which a style makes its lists. -/
structure ListMarkup where
  plainOpen : String
  markedOpen : String
  markedClose : String
  orderedOpen : String
  orderedClose : String

namespace ListMarkup

def around (opening closing : String) : List Char :=
  replaceAll (Replacements.ofList listDirective.aliases).finder String.toList
    (opening ++ applyTemplates ++ closing).toList

def plain (m : ListMarkup) : List Char := around m.plainOpen m.markedClose

def ordered (m : ListMarkup) : List Char := around m.orderedOpen m.orderedClose

def marked (m : ListMarkup) : List Char := around m.markedOpen m.markedClose

def choice (m : ListMarkup) : Choice := typeChoice m.plain m.ordered m.marked

/-- Whether a style defines the texts, and has no template of its own for lists. -/
structure DefinedIn (m : ListMarkup) (fs : Fragments) : Prop where
  plainOpen : fs.get? "ulist_open_default" = some m.plainOpen
  markedOpen : fs.get? "ulist_open" = some m.markedOpen
  markedClose : fs.get? "ulist_close" = some m.markedClose
  orderedOpen : fs.get? "olist_open" = some m.orderedOpen
  orderedClose : fs.get? "olist_close" = some m.orderedClose
  own : fs.get? "list" = none

section DefinedIn

variable {m : ListMarkup} {fs : Fragments} (h : m.DefinedIn fs)

include h

theorem DefinedIn.list? : fs.list?.map String.toList =
    some (typeChoice (m.plainOpen ++ applyTemplates ++ m.markedClose).toList
      (m.orderedOpen ++ applyTemplates ++ m.orderedClose).toList
      (m.markedOpen ++ applyTemplates ++ m.markedClose).toList).text := by
  simp only [Fragments.list?, Fragments.wrap?, h.plainOpen, h.markedOpen, h.markedClose, h.orderedOpen,
    h.orderedClose]
  exact congrArg some (toList_listText _ _ _)

theorem DefinedIn.recompose : (fs.recompose.get? "list").map String.toList = some m.choice.text := by
  obtain ⟨t, ht, htext⟩ := Option.map_eq_some_iff.1 h.list?
  have hlayout : fs.layOut? listDirective = some t := by
    have hcompose : fs.compose? listDirective.layout = some t := ht
    have hname : fs.get? listDirective.name = none := h.own
    rw [Fragments.layOut?, hname, hcompose]
    rfl
  have htemplate : fs.recompose.get? "list" = some ((Replacements.ofList listDirective.aliases).apply t) := by
    have hget := get?_recompose fs listDirective_mem
    rwa [Fragments.template?, hlayout] at hget
  rw [htemplate, Option.map_some, Replacements.apply, String.toList_ofList, htext, Choice.text,
    braceFinder_listDirective.replaceAll_chooseText]
  · rfl
  · simp only [typeChoice, List.map_cons, List.map_nil, List.forall_mem_cons]
    exact ⟨by decide, by decide, by simp⟩

end DefinedIn

end ListMarkup

section Lists

variable {m : ListMarkup} {fs : Fragments}

/--
Of five fragments a choice is made that shows the plain list where there is no type, the ordered one where
five letters in a row among `upperlowerdecim` start the type, or the whole of a shorter type stands there,
and the list with a marker otherwise.
-/
theorem recompose_list (h : m.DefinedIn fs) :
    (fs.recompose.get? "list").map String.toList = some m.choice.text ∧
      ∀ attributes : Attributes, m.choice.select attributes =
        match attributes typeName with
        | none => m.plain
        | some type =>
          if (∃ start ∈ orderedStarts ++ straddlingStarts, start <+: type) ∨
              type.length < 5 ∧ type <:+: typeLetters then m.ordered
          else m.marked := by
  refine ⟨h.recompose, fun attributes => ?_⟩
  simp only [ListMarkup.choice, select_typeChoice, take_infix_typeLetters_iff]

end Lists

def exampleLists : ListMarkup :=
  ⟨"<ul>", "<ul style=\"list-style-type: \x7bLIST_TYPE\x7d\">", "</ul>",
    "<ol style=\"list-style-type: \x7bLIST_TYPE\x7d\">", "</ol>"⟩

def exampleFragments : Fragments := .ofList [("ulist_open_default", exampleLists.plainOpen),
  ("ulist_open", exampleLists.markedOpen), ("ulist_close", exampleLists.markedClose),
  ("olist_open", exampleLists.orderedOpen), ("olist_close", exampleLists.orderedClose)]

theorem exampleLists_defined : exampleLists.DefinedIn exampleFragments := by
  constructor <;> decide +kernel

/-- Lists of decimals are ordered there. -/
theorem recompose_list_example : exampleLists.DefinedIn exampleFragments ∧
    (exampleFragments.recompose.get? "list").map String.toList = some exampleLists.choice.text ∧
    exampleLists.choice.select (fun _ => some ['d', 'e', 'c', 'i', 'm', 'a', 'l']) =
      exampleLists.ordered := by
  have hlist := recompose_list exampleLists_defined
  refine ⟨exampleLists_defined, hlist.1, (hlist.2 _).trans (if_pos (.inl ?_))⟩
  exact ⟨['d', 'e', 'c', 'i', 'm'], by decide, by decide⟩

/-- So are lists of types that start with none of the three words, and of the empty one. -/
theorem otherTypes_are_ordered :
    (exampleFragments.recompose.get? "list").map String.toList = some exampleLists.choice.text ∧
    exampleLists.ordered ≠ exampleLists.marked ∧
    ∀ type ∈ [[], ['l', 'o', 'w'], ['p', 'e', 'r', 'l', 'o']],
      (∀ start ∈ orderedStarts, ¬ start <+: type) ∧
        exampleLists.choice.select (fun _ => some type) = exampleLists.ordered := by
  refine ⟨exampleLists_defined.recompose, by decide +kernel, fun type htype => ?_⟩
  have hall : ∀ type ∈ [[], ['l', 'o', 'w'], ['p', 'e', 'r', 'l', 'o']],
      (∀ start ∈ orderedStarts, ¬ start <+: type) ∧ type.take 5 <:+: typeLetters := by decide
  obtain ⟨hstart, hinfix⟩ := hall type htype
  exact ⟨hstart, (select_typeChoice _ _ _ _).trans (if_pos hinfix)⟩

end BoardMarkup.Style
