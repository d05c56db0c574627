import BoardMarkup.Proofs.Markup.Acceptance
import BoardMarkup.Proofs.Markup.Attribute

/-!
Tags as they are written with a name and quoted attributes: that they are read so, and which are harmless.
-/
namespace BoardMarkup.Markup

open Text

/-- A name begins with a letter or an underscore. -/
def isNameStart (c : Char) : Bool := letters.contains c || c == '_'

def isNameChar (c : Char) : Bool := isLetterOrNumber c || c ∈ ['_', ':', '-', '.']

structure Name where
  first : Char
  rest : List Char
  starts : isNameStart first = true
  goesOn : ∀ c ∈ rest, isNameChar c = true

def marks : List Char := ['<', '>', '/', '=', '"', '\'', '!', '?', ' ', '\t', '\r', '\n']

theorem isNameChar_of_mem_marks : ∀ c ∈ marks, isNameChar c = false := by
  have hmarks : marks.all (!isNameChar ·) = true := by decide
  simpa using hmarks

private theorem isNameChar_of_isNameStart {c : Char} (h : isNameStart c = true) : isNameChar c = true := by
  rw [isNameStart, Bool.or_eq_true, beq_iff_eq] at h
  rcases h with h | rfl
  · simp [isNameChar, isLetterOrNumber, h]
  · decide

namespace Name

variable (n : Name)

def text : List Char := n.first :: n.rest

private theorem isNameChar_of_mem {c : Char} (h : c ∈ n.text) : isNameChar c = true := by
  rcases List.mem_cons.1 h with rfl | h
  · exact isNameChar_of_isNameStart n.starts
  · exact n.goesOn c h

theorem notMem_marks {c : Char} (h : c ∈ n.text) : c ∉ marks := fun hm => by
  have hchar := n.isNameChar_of_mem h
  rw [isNameChar_of_mem_marks c hm] at hchar
  cases hchar

theorem ne_of_mem {c d : Char} (h : c ∈ n.text) (hd : d ∈ marks) : c ≠ d := fun he =>
  n.notMem_marks h (he ▸ hd)

theorem isMarkupBlank_of_mem {c : Char} (h : c ∈ n.text) : isMarkupBlank c = false := by
  have hmarks := n.notMem_marks h
  simp only [marks, List.mem_cons, not_or] at hmarks
  simp [isMarkupBlank, hmarks]

theorem isAttributeName : IsAttributeName n.text := by
  refine ⟨n.first, n.rest, rfl, n.isMarkupBlank_of_mem List.mem_cons_self, fun c hc => ?_⟩
  exact ⟨n.ne_of_mem (.tail _ hc) (by decide), n.isMarkupBlank_of_mem (.tail _ hc)⟩

theorem getLast?_ne_slash : n.text.getLast? ≠ some '/' := fun h =>
  n.ne_of_mem (List.mem_of_getLast? h) (by decide) rfl

end Name

def Name.ofChars (first : Char) (rest : List Char)
    (h : (isNameStart first && rest.all isNameChar) = true) : Name where
  first := first
  rest := rest
  starts := (Bool.and_eq_true_iff.1 h).1
  goesOn := List.all_eq_true.1 (Bool.and_eq_true_iff.1 h).2

@[simp] theorem Name.text_ofChars {first : Char} {rest : List Char}
    (h : (isNameStart first && rest.all isNameChar) = true) :
    (Name.ofChars first rest h).text = first :: rest := rfl

structure QuotedAttribute where
  name : Name
  value : List Char
  enclosed : '"' ∉ value

theorem blank_space : ∀ c ∈ [' '], isMarkupBlank c = true := List.forall_mem_singleton.2 rfl

theorem blank_nil : ∀ c ∈ ([] : List Char), isMarkupBlank c = true := List.forall_mem_nil _

private theorem quote_double : '"' = '"' ∨ '"' = '\'' := .inl rfl

def QuotedAttribute.written (a : QuotedAttribute) : WrittenAttribute where
  lead := [' ']
  name := a.name.text
  gap := []
  space := []
  quote := '"'
  value := a.value
  leadBlank := blank_space
  isName := a.name.isAttributeName
  gapBlank := blank_nil
  spaceBlank := blank_nil
  isQuote := quote_double
  enclosed := a.enclosed

/-- The name of an element, and attributes with different names. -/
structure Tag where
  name : Name
  attributes : List QuotedAttribute
  distinct : (attributes.map fun a => a.name.text).Nodup

def Tag.content (t : Tag) : List Char := t.name.text ++ t.attributes.flatMap fun a => a.written.text

theorem scan_cons (cursor : Cursor) (c : Char) (cs : List Char) :
    scan cursor (c :: cs) =
      ((step cursor c).2.toList ++ (scan (step cursor c).1 cs).1, (scan (step cursor c).1 cs).2) := rfl

/-- A part of a tag in which the tag does not end and no quote is left open. -/
def StaysInTag (cs : List Char) : Prop :=
  ∀ seen, scan (.tag none seen) cs = ([], .tag none (cs.reverse ++ seen))

namespace StaysInTag

variable {xs ys : List Char}

theorem append (hx : StaysInTag xs) (hy : StaysInTag ys) : StaysInTag (xs ++ ys) := by
  intro seen
  rw [scan_append, hx, hy, List.reverse_append, List.append_assoc]
  rfl

theorem flatMap {α : Type} {f : α → List Char} {as : List α} (h : ∀ a ∈ as, StaysInTag (f a)) :
    StaysInTag (as.flatMap f) := by
  induction as with
  | nil => exact fun seen => rfl
  | cons a as ih =>
    rw [List.flatMap_cons]
    exact (h a List.mem_cons_self).append (ih fun a ha => h a (.tail _ ha))

theorem of_forall (h : ∀ c ∈ xs, c ≠ '>' ∧ c ≠ '"' ∧ c ≠ '\'') : StaysInTag xs := by
  intro seen
  have hquote : xs.foldl quoteAfter none = none := by
    induction xs with
    | nil => rfl
    | cons c cs ih =>
      obtain ⟨-, hdouble, hsingle⟩ := h c List.mem_cons_self
      rw [List.foldl_cons, quoteAfter, if_neg (by simp [hdouble, hsingle])]
      exact ih fun c hc => h c (.tail _ hc)
  rw [scan_tag _ _ _ fun hm => (h _ hm).1 rfl, hquote]

theorem quoted (h : '"' ∉ xs) : StaysInTag ('"' :: (xs ++ ['"'])) := by
  intro seen
  have hopen : step (.tag none seen) '"' = (.tag (some '"') ('"' :: seen), none) := rfl
  have hclose : ∀ seen, step (.tag (some '"') seen) '"' = (.tag none ('"' :: seen), none) := fun _ => rfl
  rw [scan_cons, hopen, scan_append, scan_quoted _ _ _ h, scan_singleton, hclose]
  simp

end StaysInTag

/-- Brackets around such a text make a tag of it, unless a sign at its start makes them something else. -/
theorem scan_brackets {c : Char} {cs : List Char} (hc : c ≠ '!' ∧ c ≠ '?') (h : StaysInTag (c :: cs)) :
    scan .text ('<' :: (c :: cs) ++ ['>']) = ([.ofContent (c :: cs)], .text) := by
  have hless : ∀ xs, scan .less (c :: xs) = scan (.tag none []) (c :: xs) := fun xs => by
    rw [scan_cons, scan_cons, step, lessStep, if_neg hc.1, if_neg hc.2, step]
  have hbracket : step .text '<' = (.less, none) := rfl
  have hend : ∀ seen, step (.tag none seen) '>' = (.text, some (.ofContent seen.reverse)) := fun _ => rfl
  rw [List.cons_append, scan_cons, hbracket, List.cons_append, hless, ← List.cons_append, scan_append, h,
    scan_singleton, hend]
  simp

theorem Name.staysInTag (n : Name) : StaysInTag n.text := .of_forall fun c hc =>
  ⟨n.ne_of_mem hc (by decide), n.ne_of_mem hc (by decide), n.ne_of_mem hc (by decide)⟩

theorem QuotedAttribute.staysInTag (a : QuotedAttribute) : StaysInTag a.written.text := by
  have hspace : StaysInTag [' '] := .of_forall (by simp)
  have hequals : StaysInTag ['='] := .of_forall (by simp)
  exact hspace.append (a.name.staysInTag.append (hequals.append (.quoted a.enclosed)))

theorem Name.scan_closing (n : Name) :
    scan .text ('<' :: '/' :: n.text ++ ['>']) = ([.closing n.text], .text) := by
  have hslash : StaysInTag ['/'] := .of_forall (by simp)
  have hlast : isMarkupBlank (n.text.getLast (by simp [Name.text])) = false :=
    n.isMarkupBlank_of_mem (List.getLast_mem _)
  have hname : closingName n.text = n.text := by
    have hkeep := dropEndWhile_eq_self (List.getLast?_eq_some_getLast (by simp [Name.text])) hlast
    rw [closingName, hkeep, ite_self]
  have hscan : scan .text ('<' :: '/' :: n.text ++ ['>']) = ([.ofContent ('/' :: n.text)], .text) :=
    scan_brackets (by decide) (hslash.append n.staysInTag)
  rw [hscan, Token.ofContent, hname]

namespace Tag

variable (t : Tag)

theorem staysInTag : StaysInTag t.content :=
  t.name.staysInTag.append (.flatMap fun a _ => a.staysInTag)

theorem getLast?_content : t.content.getLast? ≠ some '/' := by
  rcases List.eq_nil_or_concat t.attributes with h | ⟨init, a, h⟩
  · rw [content, h, List.flatMap_nil, List.append_nil]
    exact t.name.getLast?_ne_slash
  · have hend : ∃ before, t.content = before ++ ['"'] := by
      refine ⟨t.name.text ++ init.flatMap (fun a => a.written.text) ++
        (' ' :: a.name.text ++ '=' :: '"' :: a.value), ?_⟩
      simp [content, h, WrittenAttribute.text, QuotedAttribute.written]
    obtain ⟨before, hbefore⟩ := hend
    rw [hbefore, List.getLast?_concat]
    decide

theorem first_ne : t.name.first ≠ '!' ∧ t.name.first ≠ '?' :=
  ⟨t.name.ne_of_mem List.mem_cons_self (by decide), t.name.ne_of_mem List.mem_cons_self (by decide)⟩

theorem first_ne_slash : t.name.first ≠ '/' := t.name.ne_of_mem List.mem_cons_self (by decide)

theorem scan_opening : scan .text ('<' :: t.content ++ ['>']) = ([.opening t.content], .text) := by
  have hcontent : Token.ofContent t.content = .opening t.content := by
    rw [content, Name.text, List.cons_append, ofContent_cons t.first_ne_slash, if_neg]
    exact t.getLast?_content
  have hscan := scan_brackets t.first_ne t.staysInTag
  rw [← hcontent]
  exact hscan

theorem scan_empty : scan .text ('<' :: t.content ++ ['/', '>']) = ([.empty t.content], .text) := by
  have hslash : StaysInTag ['/'] := .of_forall (by simp)
  have hcontent : Token.ofContent (t.content ++ ['/']) = .empty t.content := by
    rw [content, Name.text, List.cons_append, List.cons_append, ofContent_cons t.first_ne_slash,
      ← List.cons_append, List.getLast?_concat, if_pos rfl, List.dropLast_concat]
  have hscan :
      scan .text ('<' :: (t.content ++ ['/']) ++ ['>']) = ([.ofContent (t.content ++ ['/'])], .text) :=
    scan_brackets t.first_ne (t.staysInTag.append hslash)
  rw [← hcontent, ← hscan, List.cons_append, List.cons_append, List.append_assoc, List.singleton_append]

theorem elementName_content : elementName t.content = t.name.text := by
  have hname : t.name.text.takeWhile (!isMarkupBlank ·) = t.name.text := by
    rw [List.takeWhile_eq_self_iff]
    intro c hc
    rw [t.name.isMarkupBlank_of_mem hc, Bool.not_false]
  cases h : t.attributes with
  | nil => rw [elementName, content, h, List.flatMap_nil, List.append_nil, hname]
  | cons a as =>
    rw [elementName, content, h, List.flatMap_cons, WrittenAttribute.text, QuotedAttribute.written,
      List.singleton_append, List.cons_append, takeWhile_append_cons (by decide), hname]

/-- The attributes of a tag are read as they are written, without a fault. -/
theorem attributes_content : (Markup.attributes t.content).2 = none ∧
    (Markup.attributes t.content).1.map (fun a => (a.name, a.value)) =
      t.attributes.map fun a => (a.name.text, a.value) := by
  have hlists : Lists (t.content.drop t.name.text.length) (t.attributes.map (·.written)) :=
    ⟨[], List.forall_mem_nil _, by rw [content, List.drop_left, List.append_nil, List.flatMap_map]⟩
  have hdistinct : (([] : List Attribute).map (·.name) ++
      (t.attributes.map (·.written)).map (·.name)).Nodup := by
    rw [List.map_nil, List.nil_append, List.map_map]
    exact t.distinct
  unfold Markup.attributes
  rw [t.elementName_content]
  have hfault := scanAttributes_snd_eq_none hlists hdistinct (String.ofList t.name.text).utf8ByteSize
  refine ⟨hfault, ?_⟩
  rw [scanAttributes_written hlists hfault, List.map_map]
  rfl

end Tag

/--
An attribute that neither turns escaping off nor makes a handler from tokens, in whatever case it is
named.
-/
def Harmless (name value : List Char) : Prop :=
  name.map Char.toLower ≠ "disable-output-escaping".toList ∧
    ("on".toList <+: name.map Char.toLower → '{' ∉ value)

theorem Tag.attributeProblem?_unchecked (t : Tag) : attributeProblem? false t.content = none := by
  simp [attributeProblem?, t.attributes_content.1]

theorem Tag.attributeProblem?_checked_iff (t : Tag) :
    attributeProblem? true t.content = none ↔ ∀ a ∈ t.attributes, Harmless a.name.text a.value := by
  obtain ⟨hfault, hread⟩ := t.attributes_content
  calc attributeProblem? true t.content = none
    _ ↔ ∀ a ∈ (Markup.attributes t.content).1, Harmless a.name a.value := by
      simp only [attributeProblem?_eq_none_iff, hfault, and_true, hazard?_eq_none_iff, Harmless]
    _ ↔ ∀ p ∈ (Markup.attributes t.content).1.map (fun a => (a.name, a.value)), Harmless p.1 p.2 := by
      rw [List.forall_mem_map]
    _ ↔ ∀ a ∈ t.attributes, Harmless a.name.text a.value := by
      rw [hread, List.forall_mem_map]

end BoardMarkup.Markup
