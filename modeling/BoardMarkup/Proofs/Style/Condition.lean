import BoardMarkup.Proofs.Text.Cut
import BoardMarkup.Style.Switch

/-! The conditions of a switch, read as tests of the style's number. -/
namespace BoardMarkup.Style

open Text

def orMark : List Char := [' ', 'o', 'r', ' ']

def alternatives (cs : List Char) : List (List Char) :=
  match _h : cut? orMark cs with
  | some (first, rest) => first :: alternatives rest
  | none => [cs]
termination_by cs.length
decreasing_by
  have := congrArg List.length (cut?_eq_append _h)
  simp only [List.length_append, orMark, List.length_cons] at this
  omega

def testMark : List Char := ['$', 'S', 'T', 'Y', 'L', 'E', '_', 'I', 'D', '=']

def asksFor (id : StyleId) (test : List Char) : Bool :=
  (after? testMark test).any fun digits => Nat.ofDigitChars 10 digits 0 == id.toNat

/-- Whether a condition holds for a style. -/
def holdsFor (id : StyleId) (condition : String) : Bool :=
  (alternatives condition.toList).any (asksFor id)

def testText (id : StyleId) : List Char := testMark ++ Nat.toDigits 10 id.toNat

theorem toList_condition (ids : List StyleId) :
    (Switch.condition ids).toList = orMark.intercalate (ids.map testText) := by
  have hor : " or ".toList = orMark := String.toList_ofList
  have hmark : "$STYLE_ID=".toList = testMark := String.toList_ofList
  rw [Switch.condition, String.toList_intercalate, hor, List.map_map]
  congr 1
  refine List.map_congr_left fun id _ => ?_
  simp only [Function.comp_apply, String.toList_append, hmark, testText, Nat.toString_eq_repr,
    Nat.toList_repr]

theorem mem_testText {id : StyleId} {c : Char} (h : c ∈ testText id) : c ∈ testMark ∨ c.isDigit := by
  rcases List.mem_append.1 h with h | h
  · exact .inl h
  · exact .inr (Nat.isDigit_of_mem_toDigits (by decide) (by decide) h)

theorem space_notMem_testText (id : StyleId) : ' ' ∉ testText id := by
  intro h
  rcases mem_testText h with h | h <;> revert h <;> decide

theorem asksFor_testText (id other : StyleId) : asksFor id (testText other) = (id == other) := by
  have hn : Nat.ofDigitChars 10 (Nat.toDigits 10 other.toNat) 0 = other.toNat := by
    simp
  rw [asksFor, testText, after?_append, Option.any_some, hn, Bool.eq_iff_iff, beq_iff_eq, beq_iff_eq,
    UInt32.toNat_inj]
  exact eq_comm

private theorem alternatives_of_cut {cs first rest : List Char} (h : cut? orMark cs = some (first, rest)) :
    alternatives cs = first :: alternatives rest := by
  rw [alternatives]
  split
  · next e =>
    rw [h] at e
    cases e
    rfl
  · next e =>
    rw [h] at e
    cases e

theorem alternatives_of_no_cut {cs : List Char} (h : cut? orMark cs = none) :
    alternatives cs = [cs] := by
  unfold alternatives
  split
  · next e =>
    rw [h] at e
    cases e
  · rfl

private theorem alternatives_intercalate {tests : List (List Char)} (hne : tests ≠ [])
    (h : ∀ test ∈ tests, ' ' ∉ test) : alternatives (orMark.intercalate tests) = tests := by
  induction tests with
  | nil => exact absurd rfl hne
  | cons test tests ih =>
    have hfirst := h test (by simp)
    cases tests with
    | nil => rw [List.intercalate_singleton, alternatives_of_no_cut (cut?_eq_none hfirst)]
    | cons second tests =>
      have hc : cut? orMark (test ++ orMark ++ orMark.intercalate (second :: tests)) = some (test, _) :=
        cut?_append hfirst _
      rw [List.intercalate_cons_cons, alternatives_of_cut hc, ih (by simp) fun t ht => h t (.tail _ ht)]

/-- The condition of a branch holds for the styles that it lists, and for no others. -/
theorem holdsFor_condition (id : StyleId) (ids : List StyleId) :
    holdsFor id (Switch.condition ids) = ids.contains id := by
  rw [holdsFor, toList_condition]
  cases ids with
  | nil =>
    rw [List.map_nil, List.intercalate_nil, alternatives_of_no_cut rfl]
    rfl
  | cons first ids =>
    rw [alternatives_intercalate (by simp), List.any_map, List.contains_eq_any_beq]
    · exact congrArg (List.any _) (funext fun other => asksFor_testText id other)
    · intro test ht
      obtain ⟨other, -, rfl⟩ := List.mem_map.1 ht
      exact space_notMem_testText other

private theorem mem_intercalate {α : Type} {c : α} {separator : List α} {parts : List (List α)}
    (h : c ∈ separator.intercalate parts) : c ∈ separator ∨ ∃ part ∈ parts, c ∈ part := by
  induction parts with
  | nil => simp at h
  | cons part parts ih =>
    by_cases hp : parts = []
    · subst hp
      exact .inr ⟨part, by simp, by simpa using h⟩
    · rw [List.intercalate_cons_of_ne_nil hp, List.mem_append, List.mem_append] at h
      rcases h with (h | h) | h
      · exact .inr ⟨part, by simp, h⟩
      · exact .inl h
      · exact (ih h).imp_right fun ⟨other, hm, hc⟩ => ⟨other, .tail _ hm, hc⟩

private theorem mem_condition {ids : List StyleId} {c : Char} (h : c ∈ (Switch.condition ids).toList) :
    c ∈ orMark ∨ c ∈ testMark ∨ c.isDigit := by
  rw [toList_condition] at h
  rcases mem_intercalate h with h | ⟨test, ht, h⟩
  · exact .inl h
  · obtain ⟨id, -, rfl⟩ := List.mem_map.1 ht
    exact .inr (mem_testText h)

theorem notMem_condition {c : Char} (hor : c ∉ orMark) (htest : c ∉ testMark) (hdigit : c.isDigit = false)
    (ids : List StyleId) : c ∉ (Switch.condition ids).toList := by
  intro h
  rcases mem_condition h with h | h | h
  · exact hor h
  · exact htest h
  · rw [hdigit] at h
    cases h

theorem quote_notMem_condition (ids : List StyleId) : '"' ∉ (Switch.condition ids).toList :=
  notMem_condition (by decide) (by decide) (by decide) ids

theorem brace_notMem_condition (ids : List StyleId) : '{' ∉ (Switch.condition ids).toList :=
  notMem_condition (by decide) (by decide) (by decide) ids

end BoardMarkup.Style
