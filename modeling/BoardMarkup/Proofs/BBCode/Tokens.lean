import BoardMarkup.BBCode.Template
import BoardMarkup.Proofs.Text.CharSet
import BoardMarkup.Proofs.Text.Cut
import BoardMarkup.Proofs.Text.Find
import Mathlib.Data.List.TakeWhile

/-! Where the tokens of a template stand. -/
namespace BoardMarkup.BBCode

open Text

theorem tokenId?_cons {c : Char} (h : c.isUpper) (cs : List Char) :
    tokenId? (c :: cs) = some (c :: cs.takeWhile (fun c => c.isUpper || c == '_') ++
      (cs.dropWhile fun c => c.isUpper || c == '_').takeWhile Char.isDigit) := by
  simp only [tokenId?, h, if_true, drop_length_takeWhile]

def isIdChar (c : Char) : Bool := c.isUpper || c == '_' || c.isDigit

theorem tokenId?_eq_some {cs id : List Char} (h : tokenId? cs = some id) :
    (∃ rest, cs = id ++ rest) ∧ id ≠ [] ∧ id.all isIdChar := by
  cases cs with
  | nil => cases h
  | cons c cs =>
    by_cases hc : c.isUpper
    · rw [tokenId?_cons hc, Option.some.injEq] at h
      subst h
      refine ⟨⟨(cs.dropWhile fun c => c.isUpper || c == '_').dropWhile Char.isDigit, ?_⟩, by simp, ?_⟩
      · simp [List.takeWhile_append_dropWhile]
      · simp only [List.cons_append, List.all_cons, List.all_append, Bool.and_eq_true, isIdChar, hc,
          Bool.true_or, List.all_eq_true, true_and]
        exact ⟨fun d hd => by simp [List.mem_takeWhile_imp hd],
          fun d hd => by simp [List.mem_takeWhile_imp hd]⟩
    · simp [tokenId?, hc] at h

/-- What stands behind a character that no id holds does not matter for an id before it. -/
theorem tokenId?_append_cons {d : Char} (h : isIdChar d = false) (cs rest : List Char) :
    tokenId? (cs ++ d :: rest) = tokenId? cs := by
  simp only [isIdChar, Bool.or_eq_false_iff] at h
  obtain ⟨⟨hupper, hlow⟩, hdigit⟩ := h
  cases cs with
  | nil => simp [tokenId?, hupper]
  | cons c cs =>
    by_cases hc : c.isUpper
    · rw [List.cons_append, tokenId?_cons hc, tokenId?_cons hc,
        takeWhile_append_cons (by rw [hupper, hlow, Bool.or_false]),
        dropWhile_append_cons (by rw [hupper, hlow, Bool.or_false]), takeWhile_append_cons hdigit]
    · simp [tokenId?, hc]

/-- The ids of tokens: a capital, then capitals and underscores, then digits. -/
def IsTokenId (id : List Char) : Prop :=
  ∃ first letters digits, id = first :: letters ++ digits ∧ first.isUpper ∧
    (∀ c ∈ letters, c.isUpper ∨ c = '_') ∧ ∀ c ∈ digits, c.isDigit

theorem isTokenId_of_tokenId? {cs id : List Char} (h : tokenId? cs = some id) : IsTokenId id := by
  cases cs with
  | nil => cases h
  | cons c cs =>
    by_cases hc : c.isUpper
    · rw [tokenId?_cons hc, Option.some.injEq] at h
      refine ⟨c, _, _, h.symm, hc, fun d hd => ?_, fun d hd => List.mem_takeWhile_imp hd⟩
      simpa using List.mem_takeWhile_imp hd
    · simp [tokenId?, hc] at h

theorem tokenId?_self_iff {id : List Char} : tokenId? id = some id ↔ IsTokenId id := by
  refine ⟨isTokenId_of_tokenId?, ?_⟩
  rintro ⟨first, letters, digits, rfl, hfirst, hletters, hdigits⟩
  have hletter : ∀ c ∈ letters, (c.isUpper || c == '_') = true := fun c hc => by simpa using hletters c hc
  have hdigit : ∀ c ∈ digits, ¬ (c.isUpper || c == '_') = true := by
    intro c hc hletter
    rw [Bool.or_eq_true, beq_iff_eq] at hletter
    have hrange := toNat_of_isDigit (hdigits c hc)
    rcases hletter with hupper | rfl
    · have := toNat_of_isUpper hupper
      omega
    · exact absurd hrange (by decide)
  have hstop : digits.takeWhile (fun c => c.isUpper || c == '_') = [] ∧
      digits.dropWhile (fun c => c.isUpper || c == '_') = digits := by
    cases digits with
    | nil => exact ⟨rfl, rfl⟩
    | cons d digits =>
      have hd := hdigit d (by simp)
      exact ⟨List.takeWhile_cons_of_neg hd, List.dropWhile_cons_of_neg hd⟩
  rw [List.cons_append, tokenId?_cons hfirst, List.takeWhile_append_of_pos hletter,
    List.dropWhile_append_of_pos hletter, hstop.1, hstop.2, List.append_nil,
    List.takeWhile_eq_self_iff.2 hdigits, List.cons_append]

theorem placeholder_eq_some_iff {before cs id : List Char} {n : Nat} :
    placeholder before cs = some (id, n) ↔
      (∃ rest, cs = '{' :: id ++ '}' :: rest) ∧ tokenId? id = some id ∧ n = id.length + 2 := by
  constructor
  · intro h
    cases cs with
    | nil => cases h
    | cons c cs =>
      by_cases hc : c = '{'
      · subst hc
        unfold placeholder at h
        obtain ⟨found, hfound, h⟩ := Option.bind_eq_some_iff.1 h
        obtain ⟨⟨rest, rfl⟩, -⟩ := tokenId?_eq_some hfound
        rw [List.drop_left] at h
        split at h
        · next hrest =>
          cases h
          cases rest with
          | nil => cases hrest
          | cons d rest =>
            cases hrest
            rw [tokenId?_append_cons (by decide)] at hfound
            exact ⟨⟨rest, rfl⟩, hfound, rfl⟩
        · cases h
      · rw [placeholder] at h
        · cases h
        · intro rest he
          exact hc (List.cons.inj he).1
  · rintro ⟨⟨rest, rfl⟩, hid, rfl⟩
    simp [placeholder, tokenId?_append_cons (d := '}') (by decide), hid]

theorem placeholder_contextFree : placeholder.ContextFree := fun _ _ _ => rfl

theorem brace_notMem {id : List Char} (h : tokenId? id = some id) {c : Char}
    (hc : isIdChar c = false) : c ∉ id := fun hm => by
  have := List.all_eq_true.1 (tokenId?_eq_some h).2.2 c hm
  rw [hc] at this
  cases this

theorem placeholder_eq_none {c : Char} (hc : c ≠ '{') (cs : List Char) : placeholder [] (c :: cs) = none := by
  rw [Option.eq_none_iff_forall_ne_some]
  rintro ⟨id, n⟩ h
  obtain ⟨⟨rest, he⟩, -⟩ := placeholder_eq_some_iff.1 h
  exact hc (List.cons.inj he).1

theorem placeholder_fits (cs id : List Char) (n : Nat) (h : placeholder [] cs = some (id, n)) :
    0 < n ∧ n ≤ cs.length := by
  obtain ⟨⟨rest, rfl⟩, -, rfl⟩ := placeholder_eq_some_iff.1 h
  simp only [List.length_append, List.length_cons]
  omega

theorem placeholder_append_cons {d : Char} (hid : isIdChar d = false) (hopen : d ≠ '{') (hclose : d ≠ '}')
    (xs ys : List Char) : placeholder [] (xs ++ d :: ys) = placeholder [] xs := by
  refine Option.ext fun ⟨id, n⟩ => ?_
  rw [placeholder_eq_some_iff, placeholder_eq_some_iff]
  refine and_congr_left fun ⟨htoken, _⟩ => ?_
  have hd : d ∉ '{' :: id ++ ['}'] := by simp [hopen, hclose, brace_notMem htoken hid]
  have hmark : ∀ cs, (∃ rest, cs = '{' :: id ++ '}' :: rest) ↔
      (after? ('{' :: id ++ ['}']) cs).isSome = true := by
    intro cs
    simp [Option.isSome_iff_exists, after?_eq_some_iff]
  rw [hmark, hmark, after?_append_cons_isSome hd]

end BoardMarkup.BBCode
