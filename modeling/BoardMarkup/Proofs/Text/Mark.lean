import BoardMarkup.Proofs.Text.Cut
import Mathlib.Data.List.Infix

/-! Where a mark first occurs in a text. -/
namespace BoardMarkup.Text

variable {mark text cs rest : List Char}

/-- Where a mark follows a text, it does not occur before the end. -/
def FirstAtEnd (mark text : List Char) : Prop :=
  ∀ before after, text ++ mark = before ++ mark ++ after → after = []

theorem FirstAtEnd.tail {c : Char} (h : FirstAtEnd mark (c :: text)) : FirstAtEnd mark text := by
  intro before after he
  refine h (c :: before) after ?_
  rw [List.cons_append, he, List.cons_append, List.cons_append]

private theorem FirstAtEnd.after?_eq_none {c : Char} (h : FirstAtEnd mark (c :: text)) (rest : List Char) :
    after? mark (c :: text ++ mark ++ rest) = none := by
  cases ha : after? mark (c :: text ++ mark ++ rest) with
  | none => rfl
  | some tail =>
    have he : c :: text ++ mark ++ rest = mark ++ tail := after?_eq_some_iff.1 ha
    have hlength : mark.length < (c :: text ++ mark).length := by
      rw [List.length_append, List.length_cons]
      omega
    obtain ⟨after, hafter⟩ :=
      List.prefix_of_prefix_length_le ⟨tail, he.symm⟩ (List.prefix_append _ rest) hlength.le
    have hnil : after = [] := h [] after (by rw [List.nil_append, hafter])
    rw [← hafter, hnil, List.append_nil] at hlength
    exact absurd hlength (Nat.lt_irrefl _)

/-- A text is cut at a mark that it is followed by, if the mark does not occur before. -/
theorem FirstAtEnd.cut? (h : FirstAtEnd mark text) (rest : List Char) :
    cut? mark (text ++ mark ++ rest) = some (text, rest) := by
  induction text with
  | nil =>
    have ha : after? mark (mark ++ rest) = some rest := after?_append mark rest
    rw [List.nil_append]
    cases hcs : mark ++ rest with
    | nil =>
      obtain ⟨rfl, rfl⟩ := List.append_eq_nil_iff.1 hcs
      rfl
    | cons c cs =>
      rw [hcs] at ha
      rw [Text.cut?, ha]
  | cons c text ih =>
    have ha := h.after?_eq_none rest
    rw [List.cons_append, List.cons_append] at ha ⊢
    rw [Text.cut?, ha]
    simp only [ih h.tail, Option.map_some]

theorem cut?_eq_none_iff : cut? mark cs = none ↔ ¬ mark <:+: cs := by
  induction cs with
  | nil => cases mark <;> simp [cut?]
  | cons c cs ih =>
    rw [List.infix_cons_iff, not_or]
    unfold cut?
    cases ha : after? mark (c :: cs) with
    | some tail =>
      have hstarts : mark <+: c :: cs := ⟨tail, (after?_eq_some_iff.1 ha).symm⟩
      simp [hstarts]
    | none =>
      have hstarts : ¬ mark <+: c :: cs := by
        rintro ⟨tail, ht⟩
        rw [← ht, after?_append] at ha
        cases ha
      simp [hstarts, ih]

/-- What is cut off does not hold the mark before its end. -/
theorem firstAtEnd_of_cut? (h : cut? mark (text ++ mark) = some (text, [])) :
    FirstAtEnd mark text := by
  induction text with
  | nil =>
    intro before after he
    have hlength := congrArg List.length he
    simp only [List.nil_append, List.length_append] at hlength
    exact List.length_eq_zero_iff.1 (by omega)
  | cons c text ih =>
    rw [List.cons_append, cut?] at h
    cases ha : after? mark (c :: (text ++ mark)) with
    | some tail =>
      rw [ha] at h
      cases h
    | none =>
      rw [ha] at h
      obtain ⟨⟨before, tail⟩, hcut, he⟩ := Option.map_eq_some_iff.1 h
      cases he
      intro before after he
      cases before with
      | nil =>
        rw [← List.cons_append, he, List.nil_append, after?_append] at ha
        cases ha
      | cons b before =>
        rw [List.cons_append, List.cons_append, List.cons_append] at he
        exact ih hcut before after (List.cons.inj he).2

private theorem firstAtEnd_iff_cut? : FirstAtEnd mark text ↔ cut? mark (text ++ mark) = some (text, []) := by
  refine ⟨fun h => ?_, firstAtEnd_of_cut?⟩
  simpa using h.cut? []

instance (mark text : List Char) : Decidable (FirstAtEnd mark text) :=
  decidable_of_iff _ firstAtEnd_iff_cut?.symm

/-- A mark whose first character does not recur in it first occurs behind a text that does not hold it. -/
theorem firstAtEnd_iff_notInfix {m : Char} (h : m ∉ mark) :
    FirstAtEnd (m :: mark) text ↔ ¬ m :: mark <:+: text := by
  constructor
  · rintro hfirst ⟨before, after, rfl⟩
    have hnil := hfirst before (after ++ m :: mark) (by simp)
    simp at hnil
  · intro hn before after he
    rcases List.append_eq_append_iff.1 he with ⟨middle, hbefore, hmark⟩ | ⟨middle, htext, -⟩
    · rcases List.append_eq_append_iff.1 hbefore with ⟨part, htext, hover⟩ | ⟨part, -, hmiddle⟩
      · -- the occurrence begins in the text, and ends in the mark behind it
        cases part with
        | nil =>
          rw [List.nil_append] at hover
          rw [hover] at hmark
          exact List.self_eq_append_right.1 hmark
        | cons d part =>
          cases middle with
          | nil =>
            rw [List.append_nil] at hover
            exact absurd ⟨before, [], by rw [List.append_nil, hover, htext]⟩ hn
          | cons c middle =>
            have hc : m = c := (List.cons.inj hmark).1
            have hm : m ∈ mark := by
              rw [(List.cons.inj hover).2, hc]
              exact List.mem_append_right _ List.mem_cons_self
            exact absurd hm h
      · rw [hmiddle, List.append_assoc] at hmark
        have hlength := congrArg List.length hmark
        simp only [List.length_append, List.length_cons] at hlength
        exact List.length_eq_zero_iff.1 (by omega)
    · exact absurd ⟨before, middle, htext.symm⟩ hn

end BoardMarkup.Text
