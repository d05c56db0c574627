import BoardMarkup.Proofs.Markup.Acceptance
import BoardMarkup.Proofs.Style.Normalization
import Mathlib.Data.List.TakeWhile

/-! Blanks that are removed from a template without a change to its tags. -/
namespace BoardMarkup.Markup

open Text Style

/-- Whether every `<` stands in text, and none in a tag, a comment or another part of the markup. -/
def opensInText : Cursor → List Char → Bool
  | _, [] => true
  | cursor, c :: cs => (c != '<' || cursor == .text) && opensInText (step cursor c).1 cs

theorem opensInText_append (cursor : Cursor) (xs ys : List Char) :
    opensInText cursor (xs ++ ys) =
      (opensInText cursor xs && opensInText (scan cursor xs).2 ys) := by
  induction xs generalizing cursor with
  | nil => rfl
  | cons c xs ih => rw [List.cons_append, opensInText, opensInText, ih, scan, Bool.and_assoc]

/-- Text begins behind `>` and `;` only. -/
theorem step_eq_text {cursor : Cursor} {c : Char} (h : (step cursor c).1 = .text) (hgt : c ≠ '>')
    (hsemi : c ≠ ';') : cursor = .text := by
  have htag : ∀ quote seen, (tagStep quote seen c).1 ≠ .text := fun quote seen => by
    simp [tagStep, hgt]
  cases cursor with
  | text => rfl
  | reference =>
    simp only [step, hsemi, if_false] at h
    split at h <;> cases h
  | less =>
    simp only [step, lessStep] at h
    split_ifs at h
    exact absurd h (htag _ _)
  | declaration => simp only [step, declarationStep] at h; split_ifs at h
  | commentStart => simp only [step] at h; split_ifs at h
  | comment dashes => simp [step, hgt] at h
  | cdataStart expected =>
    simp only [step] at h
    split at h
    · cases h
    · split_ifs at h
    · split_ifs at h
  | cdata brackets => simp [step, hgt] at h
  | doctypeStart expected =>
    simp only [step] at h
    split at h
    · cases h
    · split_ifs at h
    · split_ifs at h
  | doctype part named => simp [step, doctypeStep, hgt] at h
  | instruction seen => simp [step, hgt] at h
  | tag quote seen => exact absurd h (htag _ _)
  | stopped f => cases h

/-- Whether a character has no meaning of its own in markup. -/
def isIdle (c : Char) : Bool := c != '<' && c != '&' && c != '>' && c != ';'

private theorem step_idle {c : Char} (h : isIdle c) : step .text c = (.text, none) := by
  simp only [isIdle, Bool.and_eq_true, bne_iff_ne] at h
  simp [step, h.1.1.1, h.1.1.2]

theorem scan_idle {cs : List Char} (h : ∀ c ∈ cs, isIdle c) : scan .text cs = ([], .text) := by
  induction cs with
  | nil => rfl
  | cons c cs ih =>
    simp [scan, step_idle (h c (by simp)), ih fun x hx => h x (List.mem_cons_of_mem _ hx)]

theorem eq_text_of_scan_idle {cursor : Cursor} {cs : List Char} (h : ∀ c ∈ cs, isIdle c)
    (hs : (scan cursor cs).2 = .text) : cursor = .text := by
  induction cs generalizing cursor with
  | nil => exact hs
  | cons c cs ih =>
    have hc := h c (by simp)
    simp only [isIdle, Bool.and_eq_true, bne_iff_ne] at hc
    exact step_eq_text (ih (fun x hx => h x (List.mem_cons_of_mem _ hx)) hs) hc.1.2 hc.2

theorem isIdle_of_isBlank {c : Char} (h : isBlank c = true) : isIdle c := by
  have hne : ∀ d, isBlank d = false → c ≠ d := fun d hd he => by
    rw [he, hd] at h
    cases h
  simp [isIdle, hne '<' (by decide), hne '&' (by decide), hne '>' (by decide), hne ';' (by decide)]

theorem isIdle_of_isMarkupBlank {c : Char} (h : isMarkupBlank c = true) : isIdle c := by
  simp only [isMarkupBlank, Bool.or_eq_true, beq_iff_eq] at h
  rcases h with ((rfl | rfl) | rfl) | rfl <;> decide

end BoardMarkup.Markup

namespace BoardMarkup.Style

open Text Markup

def squeeze (before cs : List Char) : List Char :=
  (piecesFrom elementSpace before 0 cs).flatMap fun
    | .plain c => [c]
    | .found _ => []

theorem apply_removeInterElementWhitespace (cs : List Char) :
    Pass.removeInterElementWhitespace.apply cs = squeeze [] cs := by
  rw [Pass.apply, replaceAll, pieces, squeeze]
  congr 1
  funext piece
  cases piece <;> rfl

theorem elementSpace_eq_some {before cs : List Char} {a : Unit} {n : Nat}
    (h : elementSpace before cs = some (a, n)) : ∃ run rest, cs = run ++ '<' :: rest ∧ run ≠ [] ∧
      (∀ x ∈ run, isMarkupBlank x) ∧ n = run.length := by
  simp only [elementSpace, drop_length_takeWhile] at h
  split_ifs at h with hc
  obtain ⟨-, hline, hopen, -⟩ := hc
  obtain ⟨rest, hrest⟩ := List.head?_eq_some_iff.1 hopen
  exact ⟨_, rest, by rw [← hrest, List.takeWhile_append_dropWhile], List.ne_nil_of_mem hline,
    fun x hx => List.mem_takeWhile_imp hx, (congrArg Prod.snd (Option.some.inj h)).symm⟩

theorem squeeze_cons_of_none {before cs : List Char} {c : Char} (h : elementSpace before (c :: cs) = none) :
    squeeze before (c :: cs) = c :: squeeze (c :: before) cs := by
  rw [squeeze, piecesFrom, h]
  rfl

theorem squeeze_cons_of_some {before cs : List Char} {c : Char} {a : Unit} {n : Nat}
    (h : elementSpace before (c :: cs) = some (a, n)) :
    ∃ run rest, c :: cs = run ++ '<' :: rest ∧ run ≠ [] ∧ (∀ x ∈ run, isMarkupBlank x) ∧
      squeeze before (c :: cs) = squeeze (run.reverse ++ before) ('<' :: rest) := by
  obtain ⟨run, rest, hcs, hne, hblank, hn⟩ := elementSpace_eq_some h
  refine ⟨run, rest, hcs, hne, hblank, ?_⟩
  cases run with
  | nil => exact absurd rfl hne
  | cons d run =>
    rw [List.cons_append] at hcs
    obtain ⟨rfl, rfl⟩ := List.cons.inj hcs
    rw [squeeze, piecesFrom, h]
    simp only [hn, List.length_cons, Nat.add_sub_cancel, List.flatMap_cons, List.nil_append]
    rw [piecesFrom_skip, List.take_left, List.drop_left, List.reverse_cons, List.append_assoc,
      List.singleton_append, squeeze]

/-- Either a character stays, or blanks before a `<` go. -/
theorem squeeze_cons (before : List Char) (c : Char) (cs : List Char) :
    squeeze before (c :: cs) = c :: squeeze (c :: before) cs ∨
      ∃ run rest, c :: cs = run ++ '<' :: rest ∧ run ≠ [] ∧ (∀ x ∈ run, isMarkupBlank x) ∧
        squeeze before (c :: cs) = squeeze (run.reverse ++ before) ('<' :: rest) := by
  cases h : elementSpace before (c :: cs) with
  | none => exact .inl (squeeze_cons_of_none h)
  | some found => exact .inr (squeeze_cons_of_some h)

theorem squeeze_less (before cs : List Char) :
    squeeze before ('<' :: cs) = '<' :: squeeze ('<' :: before) cs := by
  rcases squeeze_cons before '<' cs with h | ⟨run, rest, hcs, hne, hblank, -⟩
  · exact h
  · cases run with
    | nil => exact absurd rfl hne
    | cons c run =>
      cases hcs
      exact absurd (hblank '<' (by simp)) (by decide)

/-- From left to right one character stays, or blanks go and the `<` behind them stays. -/
@[elab_as_elim]
theorem squeeze_induction {motive : List Char → List Char → Prop} (nil : ∀ before, motive before [])
    (keep : ∀ before c cs, elementSpace before (c :: cs) = none →
      squeeze before (c :: cs) = c :: squeeze (c :: before) cs → motive (c :: before) cs →
      motive before (c :: cs))
    (skip : ∀ before run rest, run ≠ [] → (∀ x ∈ run, isMarkupBlank x) →
      squeeze before (run ++ '<' :: rest) = '<' :: squeeze ('<' :: (run.reverse ++ before)) rest →
      motive ('<' :: (run.reverse ++ before)) rest → motive before (run ++ '<' :: rest))
    (before cs : List Char) : motive before cs := by
  induction hn : cs.length using Nat.strongRecOn generalizing before cs with
  | ind n ih =>
    cases cs with
    | nil => exact nil before
    | cons c cs =>
      rw [List.length_cons] at hn
      cases h : elementSpace before (c :: cs) with
      | none => exact keep before c cs h (squeeze_cons_of_none h) (ih cs.length (by omega) _ cs rfl)
      | some found =>
        obtain ⟨run, rest, hcs, hne, hblank, he⟩ := squeeze_cons_of_some h
        have hlength := congrArg List.length hcs
        rw [List.length_append, List.length_cons, List.length_cons] at hlength
        have hpos := List.length_pos_iff.2 hne
        rw [hcs, squeeze_less] at he
        rw [hcs]
        exact skip before run rest hne hblank he (ih rest.length (by omega) _ rest rfl)

/-- Between tags blanks make no difference to what is read. -/
theorem scan_squeeze {cursor : Cursor} {before cs : List Char} (h : opensInText cursor cs) :
    scan cursor (squeeze before cs) = scan cursor cs := by
  induction before, cs using squeeze_induction generalizing cursor with
  | nil before => rfl
  | keep before c cs hnone he ih =>
    simp only [opensInText, Bool.and_eq_true] at h
    simp only [he, scan, ih h.2]
  | skip before run rest hne hblank he ih =>
    have hidle : ∀ x ∈ run, isIdle x := fun x hx => isIdle_of_isMarkupBlank (hblank x hx)
    rw [opensInText_append, Bool.and_eq_true, opensInText, Bool.and_eq_true] at h
    have htext : (scan cursor run).2 = .text := by simpa using h.2.1
    obtain rfl := eq_text_of_scan_idle hidle htext
    rw [htext] at h
    rw [he, scan_append, scan_idle hidle, List.nil_append]
    simp only [scan, ih h.2.2]

theorem squeeze_eq_cons {before cs ds : List Char} {d : Char} (h : squeeze before cs = d :: ds)
    (hd : d ≠ '<') : ∃ rest, cs = d :: rest ∧ ds = squeeze (d :: before) rest := by
  cases cs with
  | nil => cases h
  | cons c cs =>
    rcases squeeze_cons before c cs with he | ⟨run, rest, -, -, -, he⟩
    · rw [h] at he
      obtain ⟨rfl, rfl⟩ := List.cons.inj he
      exact ⟨cs, rfl, rfl⟩
    · rw [he, squeeze_less] at h
      exact absurd (List.cons.inj h).1.symm hd

theorem commentMark_of_squeeze {before cs : List Char} (h : commentMark <+: squeeze before ('<' :: cs)) :
    commentMark <+: '<' :: cs := by
  obtain ⟨rest, hrest⟩ := h
  rw [squeeze_less] at hrest
  obtain ⟨xs, rfl, hx⟩ := squeeze_eq_cons (List.cons.inj hrest).2.symm (by decide)
  obtain ⟨ys, rfl, hy⟩ := squeeze_eq_cons hx.symm (by decide)
  obtain ⟨zs, rfl, -⟩ := squeeze_eq_cons hy.symm (by decide)
  exact ⟨zs, rfl⟩

/-- No comment begins where blanks were removed. -/
theorem commentMark_notInfix_squeeze {before cs : List Char} (h : ¬ commentMark <:+: cs) :
    ¬ commentMark <:+: squeeze before cs := by
  induction before, cs using squeeze_induction with
  | nil before => exact h
  | keep before c cs hnone he ih =>
    rw [he, List.infix_cons_iff]
    rintro (hp | hi)
    · have hc : c = '<' := by
        obtain ⟨_, ht⟩ := hp
        exact (List.cons.inj ht).1.symm
      subst hc
      rw [← he] at hp
      exact h (commentMark_of_squeeze hp).isInfix
    · exact ih (fun hi => h (hi.trans (List.suffix_cons c cs).isInfix)) hi
  | skip before run rest hne hblank he ih =>
    have hrest : ¬ commentMark <:+: '<' :: rest := fun hi => h (hi.trans (List.suffix_append run _).isInfix)
    rw [he, List.infix_cons_iff, ← squeeze_less]
    rintro (hp | hi)
    · exact hrest (commentMark_of_squeeze hp).isInfix
    · exact ih (fun hi => hrest (hi.trans (List.suffix_cons '<' rest).isInfix)) hi

/-- Blanks around a text that ends outside of all tags make no difference to what is read. -/
theorem scan_strip {cs : List Char} (h : (scan .text cs).2 = .text) :
    scan .text (stripWhile isBlank cs) = scan .text cs := by
  obtain ⟨start, last, hcs, hs, hl⟩ := eq_append_stripWhile isBlank cs
  have hstart : scan .text start = ([], .text) := scan_idle fun c hc => isIdle_of_isBlank (hs c hc)
  have hidle : ∀ c ∈ last, isIdle c := fun c hc => isIdle_of_isBlank (hl c hc)
  generalize stripWhile isBlank cs = middle at hcs ⊢
  subst hcs
  simp only [scan_append, hstart, List.nil_append] at h ⊢
  have hmiddle : (scan .text middle).2 = .text := eq_text_of_scan_idle hidle h
  rw [hmiddle, scan_idle hidle, List.append_nil]
  exact Prod.ext rfl hmiddle

theorem opensInText_strip {cs : List Char} (h : opensInText .text cs) :
    opensInText .text (stripWhile isBlank cs) := by
  obtain ⟨start, last, hcs, hs, -⟩ := eq_append_stripWhile isBlank cs
  have hstart : scan .text start = ([], .text) := scan_idle fun c hc => isIdle_of_isBlank (hs c hc)
  rw [hcs, opensInText_append, opensInText_append, hstart, Bool.and_eq_true, Bool.and_eq_true] at h
  exact h.1.2

end BoardMarkup.Style
