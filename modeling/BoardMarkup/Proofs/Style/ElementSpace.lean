import BoardMarkup.Proofs.Style.Spacing
import Mathlib.Tactic.IntervalCases

/-! Where blanks between tags are removed, and that none are left which would be removed again. -/
namespace BoardMarkup.Style

open Text

/-- The tag behind which blanks stay, read backwards. -/
def textTag : List Char := ['>', 't', 'x', 'e', 't', ':', 'l', 's', 'x', '<']

theorem toList_reverse_textTag : "<xsl:text>".toList.reverse = textTag := by
  rw [String.toList_ofList]
  rfl

theorem elementSpace_eq (before cs : List Char) : elementSpace before cs =
    if before.head? = some '>' ∧ '\n' ∈ cs.takeWhile isMarkupBlank ∧
        (cs.dropWhile isMarkupBlank).head? = some '<' ∧ after? textTag before = none then
      some ((), (cs.takeWhile isMarkupBlank).length)
    else none := by
  rw [elementSpace, toList_reverse_textTag]
  simp only [drop_length_takeWhile]

theorem elementSpace_of_notBlank {c : Char} (h : isMarkupBlank c = false) (before cs : List Char) :
    elementSpace before (c :: cs) = none := by
  rw [elementSpace_eq, List.takeWhile_cons_of_neg (by simp [h]), if_neg]
  simp

theorem elementSpace_of_blank {c : Char} (h : isMarkupBlank c = true) (before cs : List Char) :
    elementSpace (c :: before) cs = none := by
  have hc : c ≠ '>' := by
    rintro rfl
    exact absurd h (by decide)
  rw [elementSpace_eq, if_neg]
  simp [hc]

/-- What is removed depends on what follows up to the first character that is not blank. -/
theorem elementSpace_append_cons {c : Char} (h : isMarkupBlank c = false) (before xs ys : List Char) :
    elementSpace before (xs ++ c :: ys) = elementSpace before (xs ++ [c]) := by
  have htake : ∀ zs, (xs ++ c :: zs).takeWhile isMarkupBlank = xs.takeWhile isMarkupBlank :=
    takeWhile_append_cons h xs
  have hdrop : ∀ zs, (xs ++ c :: zs).dropWhile isMarkupBlank = xs.dropWhile isMarkupBlank ++ c :: zs :=
    dropWhile_append_cons h xs
  have hhead : (xs.dropWhile isMarkupBlank ++ c :: ys).head? = (xs.dropWhile isMarkupBlank ++ [c]).head? := by
    rw [List.head?_append, List.head?_append]
    rfl
  rw [elementSpace_eq, elementSpace_eq, htake, htake, hdrop, hdrop, hhead]

/-- Blanks before a tag are removed when they hold a line break and stand right behind another tag. -/
theorem elementSpace_run {run : List Char} (h : ∀ c ∈ run, isMarkupBlank c) (before rest : List Char) :
    elementSpace before (run ++ '<' :: rest) =
      if before.head? = some '>' ∧ '\n' ∈ run ∧ after? textTag before = none then some ((), run.length)
      else none := by
  have htake : (run ++ '<' :: rest).takeWhile isMarkupBlank = run := by
    rw [takeWhile_append_cons (by decide), List.takeWhile_eq_self_iff.2 h]
  have hdrop : (run ++ '<' :: rest).dropWhile isMarkupBlank = '<' :: rest := by
    rw [dropWhile_append_cons (by decide), List.dropWhile_eq_nil_iff.2 h, List.nil_append]
  rw [elementSpace_eq, htake, hdrop]
  simp

theorem elementSpace_of_notMem {cs : List Char} (h : '<' ∉ cs) (before : List Char) :
    elementSpace before cs = none := by
  rw [elementSpace_eq, if_neg]
  rintro ⟨-, -, hless, -⟩
  exact h ((List.dropWhile_suffix isMarkupBlank).subset (List.mem_of_head? hless))

/-- Two texts behind which the same blanks are removed, whatever stands between. -/
def Alike (before other : List Char) : Prop :=
  ∀ xs cs, elementSpace (xs ++ before) cs = elementSpace (xs ++ other) cs

namespace Alike

variable {before other : List Char}

theorem refl (before : List Char) : Alike before before := fun _ _ => rfl

theorem elementSpace (h : Alike before other) (cs : List Char) :
    elementSpace before cs = Style.elementSpace other cs := h [] cs

theorem append (h : Alike before other) (xs : List Char) : Alike (xs ++ before) (xs ++ other) := by
  intro ys cs
  rw [← List.append_assoc, ← List.append_assoc, h]

theorem cons (h : Alike before other) (c : Char) : Alike (c :: before) (c :: other) := h.append [c]

end Alike

theorem after?_append_isNone (mark xs before : List Char) : (after? mark (xs ++ before)).isNone =
    ((after? mark xs).isNone && (!xs.isPrefixOf mark || (after? (mark.drop xs.length) before).isNone)) := by
  induction mark generalizing xs with
  | nil => simp [after?]
  | cons m mark ih =>
    cases xs with
    | nil => simp [after?]
    | cons x xs =>
      by_cases hm : m = x
      · simp [after?, hm, ih]
      · simp [after?, hm, Ne.symm hm, List.isPrefixOf]

/-- Only the part of a text that could complete the tag counts. -/
theorem alike_of {before other : List Char} (hhead : before.head? = other.head?)
    (h : ∀ k < 10, (after? (textTag.drop k) before).isNone = (after? (textTag.drop k) other).isNone) :
    Alike before other := by
  intro xs cs
  have hfirst : (xs ++ before).head? = (xs ++ other).head? := by
    rw [List.head?_append, List.head?_append, hhead]
  have htag : (after? textTag (xs ++ before)).isNone = (after? textTag (xs ++ other)).isNone := by
    rw [after?_append_isNone, after?_append_isNone]
    by_cases hxs : xs.length < 10
    · rw [h _ hxs]
    · rw [List.drop_eq_nil_of_le (Nat.not_lt.1 hxs)]
      rfl
  rw [Bool.eq_iff_iff, Option.isNone_iff_eq_none, Option.isNone_iff_eq_none] at htag
  rw [elementSpace_eq, elementSpace_eq, hfirst]
  simp only [htag]

theorem alike_less (before other : List Char) : Alike ('<' :: before) ('<' :: other) := by
  refine alike_of (by rfl) fun k hk => ?_
  interval_cases k <;> rfl

private theorem piecesFrom_congr {before other : List Char} (h : Alike before other)
    (skip : Nat) (cs : List Char) :
    piecesFrom elementSpace before skip cs = piecesFrom elementSpace other skip cs := by
  induction cs generalizing before other skip with
  | nil => rw [piecesFrom, piecesFrom]
  | cons c cs ih =>
    cases skip with
    | succ skip => exact ih (h.cons c) skip
    | zero =>
      rw [piecesFrom, piecesFrom, h.elementSpace]
      cases elementSpace other (c :: cs) with
      | none => exact congrArg _ (ih (h.cons c) 0)
      | some found => exact congrArg _ (ih (h.cons c) _)

theorem squeeze_congr {before other : List Char} (h : Alike before other) (cs : List Char) :
    squeeze before cs = squeeze other cs := by
  rw [squeeze, squeeze, piecesFrom_congr h]

private theorem piecesFrom_append_cons {d : Char} (hd : isMarkupBlank d = false)
    (before : List Char) {skip : Nat}
    {xs : List Char} (hskip : skip ≤ xs.length) (ys : List Char) :
    piecesFrom elementSpace before skip (xs ++ d :: ys) = piecesFrom elementSpace before skip (xs ++ [d]) ++
      piecesFrom elementSpace (d :: (xs.reverse ++ before)) 0 ys := by
  induction xs generalizing before skip with
  | nil =>
    obtain rfl := Nat.le_zero.1 hskip
    simp [piecesFrom, elementSpace_of_notBlank hd]
  | cons x xs ih =>
    rw [List.length_cons] at hskip
    have hnext : ∀ {skip}, skip ≤ xs.length →
        piecesFrom elementSpace (x :: before) skip (xs ++ d :: ys) =
          piecesFrom elementSpace (x :: before) skip (xs ++ [d]) ++
            piecesFrom elementSpace (d :: ((x :: xs).reverse ++ before)) 0 ys := by
      intro skip h
      rw [ih (x :: before) h, List.reverse_cons, List.append_assoc, List.singleton_append]
    rw [List.cons_append, List.cons_append]
    cases skip with
    | succ skip => exact hnext (Nat.le_of_succ_le_succ hskip)
    | zero =>
      have hsame : elementSpace before (x :: (xs ++ d :: ys)) = elementSpace before (x :: (xs ++ [d])) :=
        elementSpace_append_cons hd before (x :: xs) ys
      rw [piecesFrom, piecesFrom, hsame]
      cases he : elementSpace before (x :: (xs ++ [d])) with
      | none => exact congrArg _ (hnext (Nat.zero_le _))
      | some found =>
        -- the blanks that go end before a `<`, so before the last character or earlier
        obtain ⟨run, rest, hcs, -, -, hn⟩ := elementSpace_eq_some (a := found.1) (n := found.2) he
        have hlength := congrArg List.length hcs
        simp only [List.length_cons, List.length_append, List.length_nil] at hlength
        exact congrArg _ (hnext (by omega))

/--
At a character that is not blank a text may be parted: what is removed before it depends on nothing
behind.
-/
theorem squeeze_append_cons {d : Char} (hd : isMarkupBlank d = false) (before xs ys : List Char) :
    squeeze before (xs ++ d :: ys) =
      squeeze before (xs ++ [d]) ++ squeeze (d :: (xs.reverse ++ before)) ys := by
  rw [squeeze, piecesFrom_append_cons hd before (Nat.zero_le _), List.flatMap_append]
  rfl

/-- No blanks between tags are left that would be removed. -/
def Tight : List Char → List Char → Prop
  | _, [] => True
  | before, c :: cs => elementSpace before (c :: cs) = none ∧ Tight (c :: before) cs

theorem tight_congr {before other : List Char} (h : Alike before other) (cs : List Char) :
    Tight before cs ↔ Tight other cs := by
  induction cs generalizing before other with
  | nil => rfl
  | cons c cs ih => rw [Tight, Tight, h.elementSpace, ih (h.cons c)]

theorem tight_append_cons {c : Char} (h : isMarkupBlank c = false) (before xs ys : List Char) :
    Tight before (xs ++ c :: ys) ↔ Tight before (xs ++ [c]) ∧ Tight (c :: (xs.reverse ++ before)) ys := by
  induction xs generalizing before with
  | nil => simp [Tight, elementSpace_of_notBlank h]
  | cons x xs ih =>
    have hx : elementSpace before (x :: (xs ++ c :: ys)) = elementSpace before (x :: (xs ++ [c])) :=
      elementSpace_append_cons h before (x :: xs) ys
    rw [List.cons_append, List.cons_append, Tight, Tight, hx, ih, List.reverse_cons, List.append_assoc,
      List.singleton_append, and_assoc]

theorem squeeze_nil (before : List Char) : squeeze before [] = [] := rfl

theorem squeeze_notBlank {d : Char} (hd : isMarkupBlank d = false) (before cs : List Char) :
    squeeze before (d :: cs) = d :: squeeze (d :: before) cs :=
  squeeze_cons_of_none (elementSpace_of_notBlank hd before cs)

theorem squeeze_of_tight {before cs : List Char} (h : Tight before cs) : squeeze before cs = cs := by
  induction cs generalizing before with
  | nil => rfl
  | cons c cs ih => rw [squeeze_cons_of_none h.1, ih h.2]

theorem squeeze_blanks {c : Char} (hc : isMarkupBlank c = true) (before : List Char) {run : List Char}
    (hrun : ∀ x ∈ run, isMarkupBlank x) (rest : List Char) :
    squeeze (c :: before) (run ++ rest) = run ++ squeeze (run.reverse ++ c :: before) rest := by
  induction run generalizing c before with
  | nil => rfl
  | cons x run ih =>
    rw [List.cons_append, squeeze_cons_of_none (elementSpace_of_blank hc before _),
      ih (hrun x (by simp)) _ fun y hy => hrun y (.tail _ hy)]
    simp

theorem squeeze_of_notMem {cs : List Char} (h : '<' ∉ cs) (before : List Char) : squeeze before cs = cs := by
  induction cs generalizing before with
  | nil => rfl
  | cons c cs ih =>
    rw [squeeze_cons_of_none (elementSpace_of_notMem h before), ih fun hm => h (.tail _ hm)]

theorem squeeze_append_of_notMem {xs : List Char} (h : '<' ∉ xs)
    (hlast : ∀ c, xs.getLast? = some c → isMarkupBlank c = false) (before ys : List Char) :
    squeeze before (xs ++ ys) = xs ++ squeeze (xs.reverse ++ before) ys := by
  cases hx : xs.getLast? with
  | none =>
    rw [List.getLast?_eq_none_iff.1 hx]
    rfl
  | some d =>
    obtain ⟨start, rfl⟩ := List.getLast?_eq_some_iff.1 hx
    rw [List.append_assoc, List.singleton_append, squeeze_append_cons (hlast d hx), squeeze_of_notMem h]
    simp

theorem squeeze_append_of_notBlank {xs : List Char} (h : ∀ c ∈ xs, isMarkupBlank c = false)
    (before ys : List Char) : squeeze before (xs ++ ys) = xs ++ squeeze (xs.reverse ++ before) ys := by
  induction xs generalizing before with
  | nil => rfl
  | cons x xs ih =>
    rw [List.cons_append, squeeze_notBlank (h x (by simp)), ih fun c hc => h c (.tail _ hc)]
    simp

/-- What stands from a tag on is treated on its own. -/
theorem squeeze_less_eq (before other cs : List Char) :
    squeeze before ('<' :: cs) = squeeze other ('<' :: cs) := by
  rw [squeeze_less, squeeze_less, squeeze_congr (alike_less before other)]

theorem squeeze_space {before run : List Char} (h : ∀ c ∈ run, isMarkupBlank c)
    (hfirst : before.head? = some '>')
    (hline : '\n' ∈ run) (hopen : after? textTag before = none) (rest : List Char) :
    squeeze before (run ++ '<' :: rest) = squeeze [] ('<' :: rest) := by
  have hsome : elementSpace before (run ++ '<' :: rest) = some ((), run.length) := by
    rw [elementSpace_run h, if_pos ⟨hfirst, hline, hopen⟩]
  cases run with
  | nil => cases hline
  | cons c run =>
    rw [List.cons_append] at hsome ⊢
    obtain ⟨other, last, hcs, -, hother, he⟩ := squeeze_cons_of_some hsome
    -- both runs end at the first character that is not blank
    have hlast : '<' :: last = '<' :: rest := by
      have hdrop := congrArg (List.dropWhile isMarkupBlank) hcs
      rw [dropWhile_append_cons (by decide), List.dropWhile_eq_nil_iff.2 hother, List.nil_append,
        ← List.cons_append, dropWhile_append_cons (by decide), List.dropWhile_eq_nil_iff.2 h] at hdrop
      exact hdrop.symm
    rw [he, hlast, squeeze_less_eq]

theorem squeeze_kept_run {before run : List Char} (h : ∀ c ∈ run, isMarkupBlank c)
    (hnone : ¬ (before.head? = some '>' ∧ '\n' ∈ run ∧ after? textTag before = none)) (rest : List Char) :
    squeeze before (run ++ '<' :: rest) = run ++ squeeze [] ('<' :: rest) := by
  have hstays : elementSpace before (run ++ '<' :: rest) = none := by
    rw [elementSpace_run h, if_neg hnone]
  cases run with
  | nil => exact squeeze_less_eq before [] rest
  | cons c run =>
    rw [List.cons_append] at hstays ⊢
    rw [squeeze_cons_of_none hstays, squeeze_blanks (h c (by simp)) before fun x hx => h x (.tail _ hx),
      squeeze_less_eq _ []]
    rfl

/-- What stays would also stay before what is left of the rest. -/
theorem elementSpace_squeeze {before cs : List Char} {c : Char}
    (h : elementSpace before (c :: cs) = none) :
    elementSpace before (c :: squeeze (c :: before) cs) = none := by
  by_cases hc : isMarkupBlank c = true
  · have hsplit : cs.takeWhile isMarkupBlank ++ cs.dropWhile isMarkupBlank = cs :=
      List.takeWhile_append_dropWhile
    have hrun : ∀ x ∈ cs.takeWhile isMarkupBlank, isMarkupBlank x := fun x hx => List.mem_takeWhile_imp hx
    have hrest : ∀ d ds, cs.dropWhile isMarkupBlank = d :: ds → isMarkupBlank d = false := by
      intro d ds hd
      have hhead : (cs.dropWhile isMarkupBlank).head? = some d := by rw [hd, List.head?_cons]
      exact head?_dropWhile hhead
    generalize cs.takeWhile isMarkupBlank = run at hsplit hrun
    generalize cs.dropWhile isMarkupBlank = rest at hsplit hrest
    subst hsplit
    rw [squeeze_blanks hc before hrun]
    cases rest with
    | nil => exact h
    | cons d ds =>
      have hd := hrest d ds rfl
      rw [squeeze_notBlank hd, ← List.cons_append, elementSpace_append_cons hd]
      rwa [← List.cons_append, elementSpace_append_cons hd] at h
  · exact elementSpace_of_notBlank (by simpa using hc) _ _

/-- After one pass nothing is left that another one would remove. -/
theorem tight_squeeze {before other : List Char} (h : Alike other before) (cs : List Char) :
    Tight other (squeeze before cs) := by
  induction before, cs using squeeze_induction generalizing other with
  | nil before => trivial
  | keep before c cs hnone he ih =>
    rw [he]
    constructor
    · rw [h.elementSpace, elementSpace_squeeze hnone]
    · exact ih (h.cons c)
  | skip before run rest hne hblank he ih =>
    rw [he]
    constructor
    · exact elementSpace_of_notBlank (by decide) _ _
    · exact ih (alike_less _ _)

theorem squeeze_squeeze (cs : List Char) : squeeze [] (squeeze [] cs) = squeeze [] cs :=
  squeeze_of_tight (tight_squeeze (.refl []) cs)

/-- A pass leaves a text as it is just when it removes nothing. -/
theorem squeeze_eq_self_iff {before cs : List Char} : squeeze before cs = cs ↔ Tight before cs := by
  refine ⟨fun h => ?_, squeeze_of_tight⟩
  rw [← h]
  exact tight_squeeze (.refl before) cs

/--
Whether blanks with a line break fill the space between two tags, of which the first does not open
`xsl:text`.
-/
def Spaced (cs : List Char) : Prop := ∃ before run rest, cs = before ++ '>' :: (run ++ '<' :: rest) ∧
  (∀ c ∈ run, isMarkupBlank c) ∧ '\n' ∈ run ∧ ¬ "<xsl:text>".toList <:+ before ++ ['>']

theorem tight_iff_forall {before cs : List Char} : Tight before cs ↔
    ∀ xs ys, cs = xs ++ ys → elementSpace (xs.reverse ++ before) ys = none := by
  induction cs generalizing before with
  | nil =>
    refine ⟨fun _ xs ys he => ?_, fun _ => trivial⟩
    obtain ⟨rfl, rfl⟩ := List.append_eq_nil_iff.1 he.symm
    rw [elementSpace_eq, if_neg]
    simp
  | cons c cs ih =>
    rw [Tight, ih]
    constructor
    · rintro ⟨hc, hcs⟩ xs ys he
      cases xs with
      | nil =>
        rw [List.nil_append] at he
        rwa [← he]
      | cons x xs =>
        obtain ⟨rfl, rfl⟩ := List.cons.inj he
        rw [List.reverse_cons, List.append_assoc, List.singleton_append, hcs xs ys rfl]
    · intro h
      refine ⟨h [] (c :: cs) rfl, fun xs ys he => ?_⟩
      have hxs := h (c :: xs) ys (by rw [he, List.cons_append])
      rwa [List.reverse_cons, List.append_assoc, List.singleton_append] at hxs

private theorem after?_reverse_eq_none_iff {mark cs : List Char} :
    after? mark.reverse cs.reverse = none ↔ ¬ mark <:+ cs := by
  rw [← List.reverse_prefix, Option.eq_none_iff_forall_ne_some]
  constructor
  · rintro h ⟨rest, hrest⟩
    exact h rest (after?_eq_some_iff.2 hrest.symm)
  · intro h rest hrest
    exact h ⟨rest, (after?_eq_some_iff.1 hrest).symm⟩

theorem after?_textTag_reverse_eq_none_iff {cs : List Char} :
    after? textTag cs.reverse = none ↔ ¬ "<xsl:text>".toList <:+ cs := by
  rw [← toList_reverse_textTag, after?_reverse_eq_none_iff]

theorem tight_iff_not_spaced {cs : List Char} : Tight [] cs ↔ ¬ Spaced cs := by
  rw [tight_iff_forall]
  constructor
  · rintro h ⟨before, run, rest, rfl, hrun, hline, hopen⟩
    have hnone := h (before ++ ['>']) (run ++ '<' :: rest) (by simp)
    rw [← after?_textTag_reverse_eq_none_iff] at hopen
    rw [List.append_nil, elementSpace_run hrun, if_pos ⟨by simp, hline, hopen⟩] at hnone
    cases hnone
  · intro h xs ys he
    rw [List.append_nil, elementSpace_eq, if_neg]
    rintro ⟨hfirst, hline, hless, hopen⟩
    obtain ⟨rest, hrest⟩ := List.head?_eq_some_iff.1 hless
    obtain ⟨before, hbefore⟩ := List.head?_eq_some_iff.1 hfirst
    have hxs : xs = before.reverse ++ ['>'] := by
      rw [← List.reverse_reverse xs, hbefore, List.reverse_cons]
    refine h ⟨before.reverse, ys.takeWhile isMarkupBlank, rest, ?_, fun c hc => List.mem_takeWhile_imp hc,
      hline, ?_⟩
    · rw [← hrest, List.takeWhile_append_dropWhile, he, hxs, List.append_assoc, List.singleton_append]
    · rwa [← hxs, ← after?_textTag_reverse_eq_none_iff]

section Ends

variable {before cs : List Char}

theorem head?_squeeze (cs : List Char) : (squeeze [] cs).head? = cs.head? := by
  cases cs with
  | nil => rfl
  | cons c cs =>
    have hnone : elementSpace [] (c :: cs) = none := by
      rw [elementSpace_eq, if_neg]
      simp
    rw [squeeze_cons_of_none hnone]
    rfl

theorem getLast?_squeeze (before cs : List Char) : (squeeze before cs).getLast? = cs.getLast? := by
  induction before, cs using squeeze_induction with
  | nil before => rfl
  | keep before c cs hnone he ih => rw [he, List.getLast?_cons, List.getLast?_cons, ih]
  | skip before run rest hne hblank he ih =>
    rw [he, List.getLast?_append, List.getLast?_cons, List.getLast?_cons, ih]
    rfl

theorem squeeze_concat (before xs : List Char) (d : Char) :
    ∃ kept, squeeze before (xs ++ [d]) = kept ++ [d] := by
  apply List.getLast?_eq_some_iff.1
  rw [getLast?_squeeze, List.getLast?_concat]

theorem count_squeeze (before cs : List Char) : (squeeze before cs).count '<' = cs.count '<' := by
  induction before, cs using squeeze_induction with
  | nil before => rfl
  | keep before c cs hnone he ih => rw [he, List.count_cons, List.count_cons, ih]
  | skip before run rest hne hblank he ih =>
    have hrun : run.count '<' = 0 := List.count_eq_zero.2 fun hm => absurd (hblank _ hm) (by decide)
    rw [he, List.count_append, List.count_cons, List.count_cons, ih, hrun, Nat.zero_add]

end Ends

end BoardMarkup.Style
