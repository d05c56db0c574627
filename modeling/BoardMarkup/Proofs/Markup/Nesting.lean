import BoardMarkup.Markup.Check

/-! Texts that close the elements they open, and what such texts do inside others. -/
namespace BoardMarkup.Markup

open Text

theorem scan_append (cursor : Cursor) (xs ys : List Char) :
    scan cursor (xs ++ ys) =
      ((scan cursor xs).1 ++ (scan (scan cursor xs).2 ys).1, (scan (scan cursor xs).2 ys).2) := by
  induction xs generalizing cursor with
  | nil => rfl
  | cons c xs ih => simp only [List.cons_append, scan, ih, List.append_assoc]

theorem scan_singleton (cursor : Cursor) (c : Char) :
    scan cursor [c] = ((step cursor c).2.toList, (step cursor c).1) := by
  simp only [scan, List.append_nil]

theorem walk_append (checked : Bool) (openNames : List (List Char)) (ts us : List Token) :
    walk checked openNames (ts ++ us) =
      walk checked openNames ts >>= fun inner => walk checked inner us := by
  induction ts generalizing openNames with
  | nil => rfl
  | cons t ts ih =>
    cases t with
    | opening content =>
      simp only [List.cons_append, walk]
      split
      · rfl
      · exact ih _
    | empty content =>
      simp only [List.cons_append, walk]
      split
      · rfl
      · exact ih _
    | closing name =>
      cases openNames with
      | nil => rfl
      | cons expected openNames =>
        simp only [List.cons_append, walk]
        split
        · exact ih _
        · rfl

/-- Tokens leave the elements around them open, or close one of them, or are refused anywhere. -/
def Outcome (checked : Bool) (openNames : List (List Char)) (ts : List Token) : Prop :=
  (∃ inner, ∀ outer, walk checked (openNames ++ outer) ts = .ok (inner ++ outer)) ∨
    (∃ before name after, ts = before ++ .closing name :: after ∧
      ∀ outer, walk checked (openNames ++ outer) before = .ok outer) ∨
    ∃ p, ∀ outer, walk checked (openNames ++ outer) ts = .error p

theorem Outcome.cons {checked : Bool} {openNames names : List (List Char)} {t : Token} {ts : List Token}
    (ht : ∀ outer us, walk checked (openNames ++ outer) (t :: us) = walk checked (names ++ outer) us)
    (h : Outcome checked names ts) : Outcome checked openNames (t :: ts) := by
  rcases h with ⟨inner, h⟩ | ⟨before, name, after, rfl, h⟩ | ⟨p, h⟩
  · exact .inl ⟨inner, fun outer => (ht outer _).trans (h outer)⟩
  · exact .inr (.inl ⟨t :: before, name, after, rfl, fun outer => (ht outer _).trans (h outer)⟩)
  · exact .inr (.inr ⟨p, fun outer => (ht outer _).trans (h outer)⟩)

theorem walk_cases (checked : Bool) (openNames : List (List Char)) (ts : List Token) :
    Outcome checked openNames ts := by
  induction ts generalizing openNames with
  | nil => exact .inl ⟨openNames, fun outer => rfl⟩
  | cons t ts ih =>
    cases t with
    | opening content =>
      cases hp : attributeProblem? checked content with
      | some p => exact .inr (.inr ⟨p, fun outer => by simp only [walk, hp]⟩)
      | none =>
        refine (ih (elementName content :: openNames)).cons fun outer us => ?_
        simp only [walk, hp, List.cons_append]
    | empty content =>
      cases hp : attributeProblem? checked content with
      | some p => exact .inr (.inr ⟨p, fun outer => by simp only [walk, hp]⟩)
      | none => exact (ih openNames).cons fun outer us => by simp only [walk, hp]
    | closing name =>
      cases openNames with
      | nil => exact .inr (.inl ⟨[], name, ts, rfl, fun outer => rfl⟩)
      | cons expected openNames =>
        by_cases hn : name = expected
        · exact (ih openNames).cons fun outer us => by
            simp only [List.cons_append, walk, if_pos hn]
        · exact .inr (.inr ⟨_, fun outer => by simp only [List.cons_append, walk, if_neg hn]; rfl⟩)

instance (r : Except Problem (List (List Char))) (names : List (List Char)) :
    Decidable (r = .ok names) :=
  match r with
  | .ok found => decidable_of_iff (found = names) ⟨congrArg _, Except.ok.inj⟩
  | .error _ => isFalse nofun

/-- Every element is opened and closed within the text. -/
def SelfContained (checked : Bool) (cs : List Char) : Prop :=
  (scan .text cs).2 = .text ∧ walk checked [] (scan .text cs).1 = .ok []

instance (checked : Bool) (cs : List Char) : Decidable (SelfContained checked cs) :=
  inferInstanceAs (Decidable (_ ∧ _))

theorem walk_outer {checked : Bool} {openNames inner : List (List Char)} {ts : List Token}
    (h : walk checked openNames ts = .ok inner) (outer : List (List Char)) :
    walk checked (openNames ++ outer) ts = .ok (inner ++ outer) := by
  rcases walk_cases checked openNames ts with
    ⟨other, ho⟩ | ⟨before, name, after, rfl, ho⟩ | ⟨p, ho⟩
  · have he := ho []
    simp only [List.append_nil, h, Except.ok.injEq] at he
    rw [ho, he]
  · have he := ho []
    rw [List.append_nil] at he
    rw [walk_append, he] at h
    cases h
  · have he := ho []
    rw [List.append_nil, h] at he
    cases he

/-- The check for hazards finds one, or makes no difference. -/
theorem attributeProblem?_checked_or (content : List Char) :
    attributeProblem? true content = attributeProblem? false content ∨
      ∃ h, attributeProblem? true content = some (.hazard h) := by
  simp only [attributeProblem?, if_true, Bool.false_eq_true, if_false]
  cases (attributes content).1.findSome? Attribute.hazard? with
  | none => exact .inl rfl
  | some h => exact .inr ⟨h, rfl⟩

/--
Two readings of the same tokens, with that check and without it, go the same way up to the first hazard.
-/
theorem walk_checked_or (openNames : List (List Char)) (ts : List Token) :
    walk true openNames ts = walk false openNames ts ∨ ∃ h, walk true openNames ts = .error (.hazard h) := by
  induction ts generalizing openNames with
  | nil => exact .inl rfl
  | cons t ts ih =>
    cases t with
    | opening content | empty content =>
      rcases attributeProblem?_checked_or content with hp | ⟨h, hp⟩
      · simp only [walk, hp]
        cases attributeProblem? false content with
        | some p => exact .inl rfl
        | none => exact ih _
      · exact .inr ⟨h, by simp only [walk, hp]⟩
    | closing name =>
      cases openNames with
      | nil => exact .inl rfl
      | cons expected openNames =>
        simp only [walk]
        split
        · exact ih _
        · exact .inl rfl

/-- What is accepted as harmless is accepted. -/
theorem walk_unchecked {openNames inner : List (List Char)} {ts : List Token}
    (h : walk true openNames ts = .ok inner) : walk false openNames ts = .ok inner := by
  rcases walk_checked_or openNames ts with hsame | ⟨z, hz⟩
  · rw [← hsame, h]
  · rw [hz] at h
    cases h

namespace SelfContained

theorem unchecked {cs : List Char} (h : SelfContained true cs) : SelfContained false cs :=
  ⟨h.1, walk_unchecked h.2⟩

theorem walk_eq {checked : Bool} {cs : List Char} (h : SelfContained checked cs)
    (openNames : List (List Char)) :
    walk checked openNames (scan .text cs).1 = .ok openNames := by
  simpa using walk_outer h.2 openNames

theorem nil (checked : Bool) : SelfContained checked [] := ⟨rfl, rfl⟩

theorem append {checked : Bool} {xs ys : List Char} (hx : SelfContained checked xs)
    (hy : SelfContained checked ys) : SelfContained checked (xs ++ ys) := by
  rw [SelfContained, scan_append, hx.1]
  refine ⟨hy.1, ?_⟩
  rw [walk_append, hx.2]
  exact hy.2

theorem between {checked : Bool} {start cs last : List Char} (openNames : List (List Char))
    (hs : (scan .text start).2 = .text) (ho : walk checked [] (scan .text start).1 = .ok openNames)
    (h : SelfContained checked cs) (hl : (scan .text last).2 = .text)
    (hc : walk checked openNames (scan .text last).1 = .ok []) :
    SelfContained checked (start ++ cs ++ last) := by
  constructor
  · simp only [scan_append, hs, h.1, hl]
  · simp only [scan_append, hs, h.1, walk_append, ho, h.walk_eq, bind, Except.bind, hc]

theorem element {checked : Bool} {start content cs name : List Char}
    (hs : scan .text start = ([.opening content], .text))
    (hp : attributeProblem? checked content = none) (h : SelfContained checked cs)
    (hn : scan .text name = ([.closing (elementName content)], .text)) :
    SelfContained checked (start ++ cs ++ name) := by
  refine between [elementName content] (by rw [hs]) ?_ h (by rw [hn]) ?_
  · simp only [hs, walk, hp]
  · simp only [hn, walk, if_true]

end SelfContained

/-- What follows such a text is read as if the text were not there. -/
theorem SelfContained.walk_skip {checked : Bool} {xs : List Char} (h : SelfContained checked xs)
    (openNames : List (List Char)) (ys : List Char) :
    walk checked openNames (scan .text (xs ++ ys)).1 = walk checked openNames (scan .text ys).1 := by
  simp only [scan_append, h.1, walk_append, h.walk_eq]
  rfl

theorem walk_start {checked : Bool} {start content : List Char}
    (hs : scan .text start = ([.opening content], .text))
    (hp : attributeProblem? checked content = none) (openNames : List (List Char)) (ys : List Char) :
    walk checked openNames (scan .text (start ++ ys)).1 =
      walk checked (elementName content :: openNames) (scan .text ys).1 := by
  simp only [scan_append, hs, List.singleton_append, walk, hp]

theorem walk_prefix_error {checked : Bool} {openNames : List (List Char)} {xs : List Char}
    {p : Problem} (h : walk checked openNames (scan .text xs).1 = .error p) (ys : List Char) :
    walk checked openNames (scan .text (xs ++ ys)).1 = .error p := by
  simp only [scan_append, walk_append, h]
  rfl

theorem scan_tag (quote : Option Char) (seen cs : List Char) (h : '>' ∉ cs) :
    scan (.tag quote seen) cs = ([], .tag (cs.foldl quoteAfter quote) (cs.reverse ++ seen)) := by
  induction cs generalizing quote seen with
  | nil => rfl
  | cons c cs ih =>
    simp only [List.mem_cons, not_or] at h
    have hc : c ≠ '>' := fun e => h.1 e.symm
    simp only [scan, step, tagStep, hc, false_and, if_false, ih _ _ h.2, Option.toList_none,
      List.nil_append, List.foldl_cons, List.reverse_cons, List.append_assoc, List.singleton_append]

theorem scan_quoted (quote : Char) (seen cs : List Char) (h : quote ∉ cs) :
    scan (.tag (some quote) seen) cs = ([], .tag (some quote) (cs.reverse ++ seen)) := by
  induction cs generalizing seen with
  | nil => rfl
  | cons c cs ih =>
    simp only [List.mem_cons, not_or] at h
    have hc : c ≠ quote := fun e => h.1 e.symm
    simp only [scan, step, tagStep, reduceCtorEq, and_false, if_false, quoteAfter, hc, ih _ h.2,
      Option.toList_none, List.nil_append, List.reverse_cons, List.append_assoc,
      List.singleton_append]

end BoardMarkup.Markup
