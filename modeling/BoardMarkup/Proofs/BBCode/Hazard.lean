import BoardMarkup.Proofs.Markup.Handler

/-! What the check for hazards adds to the check of a template: errors of its own kind and nothing else. -/
namespace BoardMarkup.Markup

theorem check_checked_or (template : String) :
    check true template = check false template ∨ ∃ h, check true template = .error (.hazard h) := by
  rcases walk_checked_or [wrapper] (scan .text (template.toList ++ "</".toList ++ wrapper ++ ['>'])).1 with
    hsame | ⟨h, hhazard⟩
  · exact .inl (by simp only [check, hsame])
  · refine .inr ⟨h, ?_⟩
    simp only [check, hhazard]
    rfl

private theorem attributeProblem?_unchecked_ne (content : List Char) (h : Hazard) :
    attributeProblem? false content ≠ some (.hazard h) := by
  simp only [attributeProblem?, Bool.false_eq_true, if_false]
  cases (attributes content).2 <;> simp

private theorem walk_unchecked_ne (openNames : List (List Char)) (ts : List Token) (h : Hazard) :
    walk false openNames ts ≠ .error (.hazard h) := by
  induction ts generalizing openNames with
  | nil => simp [walk]
  | cons t ts ih =>
    cases t with
    | opening content | empty content =>
      simp only [walk]
      split
      · next p hp =>
        intro he
        exact attributeProblem?_unchecked_ne content h (by rw [hp, Except.error.inj he])
      · exact ih _
    | closing name =>
      cases openNames with
      | nil => simp [walk]
      | cons expected openNames =>
        simp only [walk]
        split
        · exact ih _
        · simp

theorem check_unchecked_ne (template : String) (h : Hazard) : check false template ≠ .error (.hazard h) := by
  have hwalk :=
    walk_unchecked_ne [wrapper] (scan .text (template.toList ++ "</".toList ++ wrapper ++ ['>'])).1 h
  simp only [check]
  cases hw : walk false [wrapper] (scan .text (template.toList ++ "</".toList ++ wrapper ++ ['>'])).1 with
  | error p =>
    intro he
    exact hwalk (by rw [hw, Except.error.inj he])
  | ok openNames =>
    simp only [bind, Except.bind]
    split
    · simp
    · split <;> simp

end BoardMarkup.Markup

namespace BoardMarkup.BBCode

open Markup

def DefinitionError.IsHazard (e : DefinitionError) : Prop := ∃ name h, e = .hazardousTemplate name h

section Validate

variable (u : Usage) (source : String)

/-- Either the check for hazards makes no difference to a template, or it refuses it. -/
theorem validate_checked_or : (Template.mk source true).validate u = (Template.mk source false).validate u ∨
    ∃ h, (Template.mk source true).validate u = .error (.hazardousTemplate u.name h) := by
  rcases check_checked_or source with hsame | ⟨h, hhazard⟩
  · exact .inl (by simp only [Template.validate, hsame])
  · cases hundefined : (tokensOf source).find? fun id => !isLanguageToken id && !u.defines id with
    | some id => exact .inl (by simp only [Template.validate, hundefined])
    | none => exact .inr ⟨h, by simp only [Template.validate, hundefined, hhazard]⟩

theorem not_isHazard_of_unchecked {e : DefinitionError}
    (h : (Template.mk source false).validate u = .error e) : ¬ e.IsHazard := by
  rintro ⟨name, hazard, rfl⟩
  unfold Template.validate at h
  split at h
  · cases h
  · split at h
    · cases h
    · cases h
    · next hcheck => exact check_unchecked_ne source _ hcheck

/--
A template that is accepted as harmless is accepted; an error that is not about hazards is the error
without their check; and what only that check refuses is refused as harmful, as nothing is without it.
-/
theorem checked_adds_only_hazards :
    ((Template.mk source true).validate u = .ok () → (Template.mk source false).validate u = .ok ()) ∧
      (∀ e, (Template.mk source true).validate u = .error e → ¬ e.IsHazard →
        (Template.mk source false).validate u = .error e) ∧
      ((Template.mk source false).validate u = .ok () →
        ∀ e, (Template.mk source true).validate u = .error e → e.IsHazard) ∧
      ∀ e, (Template.mk source false).validate u = .error e → ¬ e.IsHazard := by
  rcases validate_checked_or u source with hsame | ⟨h, hhazard⟩
  · rw [hsame]
    refine ⟨id, fun e he _ => he, fun hok e he => ?_, fun e he => not_isHazard_of_unchecked u source he⟩
    rw [hok] at he
    cases he
  · rw [hhazard]
    refine ⟨nofun, fun e he hne => ?_, fun _ e he => ?_, fun e he => not_isHazard_of_unchecked u source he⟩
    · exact absurd ⟨u.name, h, (Except.error.inj he).symm⟩ hne
    · exact ⟨u.name, h, (Except.error.inj he).symm⟩

end Validate

/-- A harmless template, one that is broken before it is harmful, and one that is harmful. -/
theorem checked_adds_only_hazards_example :
    (Template.mk "<b>{TEXT}</b>" true).validate plainUsage = .ok () ∧
      (Template.mk "<b>{TEXT}</b>" false).validate plainUsage = .ok () ∧
    (Template.mk "</b><a onclick=\"{TEXT}\"/>" true).validate plainUsage =
        .error (.malformedTemplate "X" (.mismatched "template" "b")) ∧
      (Template.mk "</b><a onclick=\"{TEXT}\"/>" false).validate plainUsage =
        .error (.malformedTemplate "X" (.mismatched "template" "b")) ∧
    (Template.mk "<a onclick=\"{TEXT}\"/></b>" true).validate plainUsage =
        .error (.hazardousTemplate "X" (.dynamicHandler "onclick")) ∧
      (Template.mk "<a onclick=\"{TEXT}\"/></b>" false).validate plainUsage =
        .error (.malformedTemplate "X" (.mismatched "template" "b")) ∧
      ¬ (DefinitionError.malformedTemplate "X" (.mismatched "template" "b")).IsHazard ∧
    (Template.mk "<a onclick=\"{TEXT}\"/>" false).validate plainUsage = .ok () ∧
      (Template.mk "<a onclick=\"{TEXT}\"/>" true).validate plainUsage =
        .error (.hazardousTemplate "X" (.dynamicHandler "onclick")) ∧
      (DefinitionError.hazardousTemplate "X" (.dynamicHandler "onclick")).IsHazard := by
  have hharmless : (Template.mk "<b>{TEXT}</b>" true).validate plainUsage = .ok () := by decide +kernel
  have hbroken : (Template.mk "</b><a onclick=\"{TEXT}\"/>" true).validate plainUsage =
      .error (.malformedTemplate "X" (.mismatched "template" "b")) := by decide +kernel
  have hfirst : (Template.mk "<a onclick=\"{TEXT}\"/></b>" false).validate plainUsage =
      .error (.malformedTemplate "X" (.mismatched "template" "b")) := by decide +kernel
  have hharmful : (Template.mk "<a onclick=\"{TEXT}\"/>" false).validate plainUsage = .ok () := by
    decide +kernel
  have hrefused : (Template.mk "<a onclick=\"{TEXT}\"/>" true).validate plainUsage =
      .error (.hazardousTemplate "X" (.dynamicHandler "onclick")) := by decide +kernel
  have hkind := (checked_adds_only_hazards plainUsage _).2.2.2 _ hfirst
  exact ⟨hharmless, (checked_adds_only_hazards plainUsage _).1 hharmless, hbroken,
    (checked_adds_only_hazards plainUsage _).2.1 _ hbroken hkind,
    by decide +kernel, hfirst, hkind, hharmful, hrefused,
    (checked_adds_only_hazards plainUsage _).2.2.1 hharmful _ hrefused⟩

end BoardMarkup.BBCode
