import BoardMarkup.Proofs.Markup.Nesting
import Mathlib.Tactic.SplitIfs

/-! When a template is accepted: what it may do to the element it is read in. -/
namespace BoardMarkup.Markup

open Text

theorem Cursor.fault?_eq_none_iff (cursor : Cursor) : cursor.fault? = none ↔ cursor = .text := by
  cases cursor with
  | instruction seen => simp only [fault?]; split <;> simp
  | tag quote seen => cases quote <;> simp [fault?]
  | _ => simp [fault?]

def wrapperEnd : List Char := "</".toList ++ wrapper ++ ['>']

theorem wrapper_eq : wrapper = ['t', 'e', 'm', 'p', 'l', 'a', 't', 'e'] := String.toList_ofList

theorem wrapperEnd_eq : wrapperEnd = '<' :: '/' :: wrapper ++ ['>'] :=
  congrArg (· ++ wrapper ++ ['>']) (String.toList_ofList (l := ['<', '/']))

/-- A template is accepted when with the end of its element the text ends outside of all tags. -/
theorem check_eq_ok_iff (checked : Bool) (template : String) :
    check checked template = .ok () ↔
      (scan .text (template.toList ++ wrapperEnd)).2 = .text ∧
        walk checked [wrapper] (scan .text (template.toList ++ wrapperEnd)).1 = .ok [] := by
  rw [← Cursor.fault?_eq_none_iff]
  simp only [check, wrapperEnd, ← List.append_assoc]
  cases walk checked [wrapper] (scan .text (template.toList ++ "</".toList ++ wrapper ++ ['>'])).1 with
  | error p => simp [bind, Except.bind]
  | ok openNames =>
    cases (scan .text (template.toList ++ "</".toList ++ wrapper ++ ['>'])).2.fault? with
    | some f => simp [bind, Except.bind]
    | none => cases openNames <;> simp [bind, Except.bind]

theorem check_eq_error_of_walk {checked : Bool} {template : String} {p : Problem}
    (h : walk checked [wrapper] (scan .text template.toList).1 = .error p) :
    check checked template = .error p := by
  simp only [check, List.append_assoc, scan_append .text template.toList, walk_append, h]
  rfl

/-- Places outside of text and tags, where no tag begins or ends. -/
def Cursor.isInert : Cursor → Bool
  | .text | .reference | .less | .tag .. => false
  | _ => true

theorem step_inert_snd {cursor : Cursor} (h : cursor.isInert) (c : Char) :
    (step cursor c).2 = none := by
  cases cursor <;> first | rfl | simp [Cursor.isInert] at h

private theorem step_inert {cursor : Cursor} {c : Char} (h : cursor.isInert) (hc : c ≠ '>') :
    (step cursor c).1.isInert := by
  cases cursor with
  | text | reference | less | tag quote seen => simp [Cursor.isInert] at h
  | declaration => simp only [step, declarationStep]; split_ifs <;> rfl
  | commentStart => simp only [step]; split_ifs <;> rfl
  | comment dashes => simp [step, hc, Cursor.isInert]
  | cdataStart expected => simp only [step]; split <;> (try split_ifs) <;> rfl
  | cdata brackets => simp [step, hc, Cursor.isInert]
  | doctypeStart expected => simp only [step]; split <;> (try split_ifs) <;> rfl
  | doctype part named => simp [step, doctypeStep, hc, Cursor.isInert]
  | instruction seen => simp [step, hc, Cursor.isInert]
  | stopped f => rfl

theorem scan_inert {cursor : Cursor} {cs : List Char} (h : cursor.isInert) (hc : '>' ∉ cs) :
    (scan cursor cs).1 = [] ∧ (scan cursor cs).2.isInert := by
  induction cs generalizing cursor with
  | nil => exact ⟨rfl, h⟩
  | cons c cs ih =>
    simp only [List.mem_cons, not_or] at hc
    obtain ⟨htokens, hlast⟩ := ih (step_inert h (c := c) (fun e => hc.1 e.symm)) hc.2
    simp [scan, step_inert_snd h, htokens, hlast]

theorem ofContent_cons {c : Char} (h : c ≠ '/') (cs : List Char) :
    Token.ofContent (c :: cs) =
      if (c :: cs).getLast? = some '/' then .empty (c :: cs).dropLast else .opening (c :: cs) := by
  unfold Token.ofContent
  split
  · next e => exact absurd (List.cons.inj e).1 h
  · rfl

theorem ofContent_ne_wrapper (before : List Char) {after : List Char} {c : Char}
    (hc : isMarkupBlank c = false) :
    Token.ofContent (before ++ '<' :: after ++ [c]) ≠ .closing wrapper := by
  intro h
  cases before with
  | nil =>
    rw [List.nil_append, List.cons_append, ofContent_cons (by decide)] at h
    split_ifs at h
  | cons b before =>
    by_cases hb : b = '/'
    · subst hb
      have hn : closingName (before ++ '<' :: after ++ [c]) = before ++ '<' :: after ++ [c] := by
        simp [closingName, dropEndWhile, hc]
      simp only [Token.ofContent, List.cons_append, hn, Token.closing.injEq] at h
      have hm : '<' ∈ wrapper := h ▸ by simp
      rw [wrapper_eq] at hm
      exact absurd hm (by decide)
    · rw [List.cons_append, List.cons_append, ofContent_cons hb] at h
      split_ifs at h

theorem scan_text_wrapperEnd : scan .text wrapperEnd = ([.closing wrapper], .text) := by
  rw [wrapperEnd_eq, wrapper_eq]
  decide

private theorem scan_less_wrapperEnd :
    scan .less wrapperEnd = ([.opening ('<' :: '/' :: wrapper)], .text) := by
  rw [wrapperEnd_eq, wrapper_eq]
  decide

/-- Read from any place, the end of the element gives one closing tag in text and none elsewhere. -/
theorem scan_wrapperEnd {cursor : Cursor} (h : (scan cursor wrapperEnd).2 = .text) :
    (cursor = .text ∧ (scan cursor wrapperEnd).1 = [.closing wrapper]) ∨
      (scan cursor wrapperEnd).1 = [] ∨
      ∃ t, (scan cursor wrapperEnd).1 = [t] ∧ t ≠ .closing wrapper := by
  have hgt : '>' ∉ '/' :: wrapper := by rw [wrapper_eq]; decide
  have hinert : ∀ c : Cursor, c.isInert → (scan c wrapperEnd).1 = [] := by
    intro c hc
    have hopen : '>' ∉ '<' :: '/' :: wrapper := by simpa using hgt
    obtain ⟨htokens, hlast⟩ := scan_inert hc hopen
    rw [wrapperEnd_eq, scan_append, htokens, scan_singleton, step_inert_snd hlast]
    rfl
  cases cursor with
  | text => exact .inl ⟨rfl, by rw [scan_text_wrapperEnd]⟩
  | less => exact .inr (.inr ⟨_, by rw [scan_less_wrapperEnd], by simp⟩)
  | reference =>
    refine .inr (.inl ?_)
    rw [wrapperEnd_eq, wrapper_eq]
    decide
  | tag quote seen =>
    have htag := scan_tag quote seen ('<' :: '/' :: wrapper) (by simpa using hgt)
    rw [wrapperEnd_eq, scan_append, htag] at h ⊢
    simp only [scan_singleton, step, tagStep, true_and] at h ⊢
    by_cases hq : List.foldl quoteAfter quote ('<' :: '/' :: wrapper) = none
    · simp only [hq, if_true]
      refine .inr (.inr ⟨_, rfl, ?_⟩)
      have hw : '/' :: wrapper = '/' :: "templat".toList ++ ['e'] := by
        rw [wrapper_eq, String.toList_ofList]; rfl
      rw [List.reverse_append, List.reverse_reverse, hw, ← List.cons_append, ← List.append_assoc]
      exact ofContent_ne_wrapper seen.reverse (by decide)
    · simp only [hq, if_false] at h
      cases h
  | _ => exact .inr (.inl (hinert _ rfl))

/-- The text closes the element it is read in, having closed all of its own before. -/
def Escapes (checked : Bool) (cs : List Char) : Prop :=
  ∃ before after, (scan .text cs).1 = before ++ .closing wrapper :: after ∧
    walk checked [] before = .ok []

/-- Only the closing tag of the last open element leaves none open. -/
theorem walk_singleton_eq_nil {checked : Bool} {openNames : List (List Char)} {t : Token}
    (ho : openNames ≠ []) (h : walk checked openNames [t] = .ok []) :
    ∃ name, t = .closing name ∧ openNames = [name] := by
  cases t with
  | opening content =>
    simp only [walk] at h
    split at h <;> simp at h
  | empty content =>
    simp only [walk] at h
    split at h <;> simp_all
  | closing name =>
    cases openNames with
    | nil => exact absurd rfl ho
    | cons expected openNames =>
      simp only [walk] at h
      split_ifs at h with hn
      exact ⟨name, rfl, by rw [hn, Except.ok.inj h]⟩

/-- An accepted template closes what it opens, unless it closes the element it is read in. -/
theorem selfContained_or_escapes {checked : Bool} {template : String}
    (h : check checked template = .ok ()) :
    SelfContained checked template.toList ∨ Escapes checked template.toList := by
  rw [check_eq_ok_iff, scan_append] at h
  obtain ⟨hlast, hwalk⟩ := h
  rw [walk_append] at hwalk
  -- the element around a template is closed by its own end, or before by a tag of the template
  rcases walk_cases checked [] (scan .text template.toList).1 with
    ⟨inner, hs⟩ | ⟨before, name, after, hs, hb⟩ | ⟨p, hs⟩
  · left
    have hin := hs [wrapper]
    rw [List.nil_append] at hin
    rw [hin] at hwalk
    change walk checked (inner ++ [wrapper]) _ = _ at hwalk
    have hne : inner ++ [wrapper] ≠ [] := by simp
    rcases scan_wrapperEnd hlast with ⟨hc, ht⟩ | ht | ⟨t, ht, hnot⟩
    · rw [ht] at hwalk
      obtain ⟨name, -, hname⟩ := walk_singleton_eq_nil hne hwalk
      have hinner : inner = [] := by
        rcases List.append_eq_singleton_iff.1 hname with ⟨hi, -⟩ | ⟨-, hw⟩
        · exact hi
        · cases hw
      exact ⟨hc, by simpa [hinner] using hs []⟩
    · rw [ht] at hwalk
      simp [walk] at hwalk
    · rw [ht] at hwalk
      obtain ⟨name, rfl, hname⟩ := walk_singleton_eq_nil hne hwalk
      rcases List.append_eq_singleton_iff.1 hname with ⟨-, hw⟩ | ⟨-, hw⟩
      · exact absurd (by rw [List.cons.inj hw |>.1]) hnot
      · cases hw
  · right
    have hin := hb [wrapper]
    rw [List.nil_append] at hin
    rw [hs, walk_append, hin] at hwalk
    change (walk checked [wrapper] (.closing name :: after)) >>= _ = _ at hwalk
    unfold walk at hwalk
    split_ifs at hwalk with hn
    · exact ⟨before, after, by rw [hs, hn], by simpa using hb []⟩
    · cases hwalk
  · have hin := hs [wrapper]
    rw [List.nil_append] at hin
    rw [hin] at hwalk
    cases hwalk

theorem SelfContained.check {checked : Bool} {template : String}
    (h : SelfContained checked template.toList) : check checked template = .ok () := by
  rw [check_eq_ok_iff, scan_append, h.1, scan_text_wrapperEnd]
  refine ⟨rfl, ?_⟩
  rw [walk_append, h.walk_eq]
  rfl

/-- In any other element such a template closes the wrong one. -/
theorem Escapes.walk_eq_error {checked : Bool} {cs : List Char} (h : Escapes checked cs)
    {name : List Char} (hn : name ≠ wrapper) (openNames : List (List Char)) :
    walk checked (name :: openNames) (scan .text cs).1 =
      .error (.fault (.mismatched (String.ofList name) (String.ofList wrapper))) := by
  obtain ⟨before, after, hs, hb⟩ := h
  rw [hs, walk_append, ← List.nil_append (name :: openNames), walk_outer hb]
  change walk checked (name :: openNames) (.closing wrapper :: after) = _
  rw [walk, if_neg hn.symm]

end BoardMarkup.Markup
