import BoardMarkup.Proofs.Style.Normalization
import BoardMarkup.Proofs.Text.Mark

/-! The comments of a template, one after the other. -/
namespace BoardMarkup.Style

open Text

def commentEnd : List Char := ['-', '-', '>']

def commentText (body : List Char) : List Char := commentMark ++ body ++ commentEnd

def commentElement (body : List Char) : List Char :=
  ['<', 'x', 's', 'l', ':', 'c', 'o', 'm', 'm', 'e', 'n', 't', '>'] ++ body ++
    ['<', '/', 'x', 's', 'l', ':', 'c', 'o', 'm', 'm', 'e', 'n', 't', '>']

def Commented (cs : List Char) : Prop := ∃ before body rest, cs = before ++ commentText body ++ rest

theorem Commented.of_infix {cs ds : List Char} (h : Commented cs) (hi : cs <:+: ds) : Commented ds := by
  obtain ⟨before, body, rest, rfl⟩ := h
  obtain ⟨start, last, rfl⟩ := hi
  exact ⟨start ++ before, body, rest ++ last, by simp⟩

theorem toList_commentMark : "<!--".toList = commentMark := String.toList_ofList

theorem toList_commentEnd : "-->".toList = commentEnd := String.toList_ofList

theorem comment_contextFree : comment.ContextFree := fun _ _ _ => rfl

theorem comment_eq_some {before cs body : List Char} {n : Nat} (h : comment before cs = some (body, n)) :
    n = (commentText body).length ∧ ∃ rest, cs = commentText body ++ rest := by
  unfold comment at h
  rw [toList_commentMark, toList_commentEnd] at h
  obtain ⟨inside, hinside, h⟩ := Option.bind_eq_some_iff.1 h
  obtain ⟨⟨found, rest⟩, hcut, h⟩ := Option.bind_eq_some_iff.1 h
  cases h
  constructor
  · simp only [commentText, commentMark, commentEnd, List.length_append, List.length_cons, List.length_nil]
  · refine ⟨rest, ?_⟩
    rw [after?_eq_some_iff.1 hinside, cut?_eq_append hcut, commentText]
    simp only [List.append_assoc]

private theorem comment_isSome (body rest : List Char) :
    ∃ found n, comment [] (commentText body ++ rest) = some (found, n) := by
  have hinside : after? commentMark (commentText body ++ rest) = some (body ++ commentEnd ++ rest) := by
    rw [commentText, List.append_assoc, List.append_assoc, after?_append, List.append_assoc]
  cases hcut : cut? commentEnd (body ++ commentEnd ++ rest) with
  | none =>
    exact absurd ⟨body, rest, rfl⟩ (cut?_eq_none_iff.1 hcut)
  | some parts =>
    refine ⟨parts.1, 4 + parts.1.length + 3, ?_⟩
    unfold comment
    rw [toList_commentMark, toList_commentEnd, hinside]
    simp only [Option.bind_eq_bind, Option.bind_some, hcut]
    rfl

theorem commented_cons_iff {c : Char} {cs : List Char} (h : comment [] (c :: cs) = none) :
    Commented (c :: cs) ↔ Commented cs := by
  constructor
  · rintro ⟨before, body, rest, he⟩
    cases before with
    | nil =>
      obtain ⟨found, n, hfound⟩ := comment_isSome body rest
      rw [he, List.nil_append, hfound] at h
      cases h
    | cons b before =>
      exact ⟨before, body, rest, (List.cons.inj he).2⟩
  · rintro ⟨before, body, rest, rfl⟩
    exact ⟨c :: before, body, rest, rfl⟩

private theorem comment_takes : comment.Takes fun text body => text = commentText body := by
  intro cs body n h
  obtain ⟨rfl, rest, rfl⟩ := comment_eq_some h
  exact ⟨commentText body, rest, rfl, rfl, List.cons_ne_nil _ _, rfl⟩

/-- Either a text begins with a comment, which is taken as a whole, or with a character that stays. -/
@[elab_as_elim]
theorem comment_induction {motive : List Char → Prop} (nil : motive [])
    (plain : ∀ c cs, comment [] (c :: cs) = none → motive cs → motive (c :: cs))
    (found : ∀ body rest, comment [] (commentText body ++ rest) = some (body, (commentText body).length) →
      motive rest → motive (commentText body ++ rest)) (cs : List Char) : motive cs := by
  refine find_induction comment_takes nil plain ?_ cs
  rintro _ rest body - rfl hfound hrest
  exact found body rest hfound hrest

section Passes

variable {body rest : List Char}
  (h : comment [] (commentText body ++ rest) = some (body, (commentText body).length))

theorem commentText_eq_cons (body : List Char) :
    commentText body = '<' :: (['!', '-', '-'] ++ body ++ commentEnd) := rfl

include h in
theorem findAll_commentText : findAll comment (commentText body ++ rest) = body :: findAll comment rest := by
  rw [commentText_eq_cons, List.cons_append] at h ⊢
  rw [findAll_cons_of_some comment_contextFree h, List.length_cons, Nat.add_sub_cancel, List.drop_left]

include h in
theorem replaceAll_commentText (g : List Char → List Char) :
    replaceAll comment g (commentText body ++ rest) = g body ++ replaceAll comment g rest := by
  exact replaceAll_append_of_some comment_contextFree g (commentText_eq_cons body ▸ List.cons_ne_nil _ _) h

end Passes

/-- No comment is found just where none stands. -/
theorem findAll_comment_eq_nil_iff (cs : List Char) : findAll comment cs = [] ↔ ¬ Commented cs := by
  induction cs using comment_induction with
  | nil =>
    refine ⟨fun _ => ?_, fun _ => rfl⟩
    rintro ⟨before, body, rest, he⟩
    have hlength := congrArg List.length he
    simp [commentText, commentMark] at hlength
  | plain c cs hc ih => rw [findAll_cons_of_none comment_contextFree hc, ih, commented_cons_iff hc]
  | found body rest hc ih =>
    rw [findAll_commentText hc]
    exact ⟨fun he => absurd he (List.cons_ne_nil _ _), fun hn => absurd ⟨[], body, rest, rfl⟩ hn⟩

theorem replaceAll_comment_eq_self {cs : List Char} (h : ¬ Commented cs) (g : List Char → List Char) :
    replaceAll comment g cs = cs := by
  induction cs using comment_induction with
  | nil => rfl
  | plain c cs hc ih =>
    rw [replaceAll_cons_of_none comment_contextFree hc, ih (by rwa [commented_cons_iff hc] at h)]
  | found body rest hc ih => exact absurd ⟨[], body, rest, rfl⟩ h

theorem count_commentText (body : List Char) : (commentText body).count '<' = body.count '<' + 1 := by
  simp [commentText, commentMark, commentEnd]

theorem count_commentElement (body : List Char) : (commentElement body).count '<' = body.count '<' + 2 := by
  simp [commentElement]

private theorem apply_removeComments (cs : List Char) :
    Pass.removeComments.apply cs = replaceAll comment (fun _ => []) cs := rfl

theorem apply_transposeComments (cs : List Char) :
    Pass.transposeComments.apply cs = replaceAll comment commentElement cs := by
  have hstart : "<xsl:comment>".toList =
      ['<', 'x', 's', 'l', ':', 'c', 'o', 'm', 'm', 'e', 'n', 't', '>'] := String.toList_ofList
  have hend : "</xsl:comment>".toList =
      ['<', '/', 'x', 's', 'l', ':', 'c', 'o', 'm', 'm', 'e', 'n', 't', '>'] := String.toList_ofList
  rw [Pass.apply, hstart, hend]
  rfl

theorem count_removeComments_le (cs : List Char) :
    (Pass.removeComments.apply cs).count '<' + (findAll comment cs).length ≤ cs.count '<' := by
  rw [apply_removeComments]
  induction cs using comment_induction with
  | nil => exact Nat.le_refl _
  | plain c cs hc ih =>
    rw [replaceAll_cons_of_none comment_contextFree hc, findAll_cons_of_none comment_contextFree hc,
      List.count_cons, List.count_cons]
    omega
  | found body rest hc ih =>
    rw [replaceAll_commentText hc, findAll_commentText hc, List.nil_append, List.count_append,
      count_commentText, List.length_cons]
    omega

theorem count_transposeComments (cs : List Char) :
    (Pass.transposeComments.apply cs).count '<' = cs.count '<' + (findAll comment cs).length := by
  rw [apply_transposeComments]
  induction cs using comment_induction with
  | nil => rfl
  | plain c cs hc ih =>
    rw [replaceAll_cons_of_none comment_contextFree hc, findAll_cons_of_none comment_contextFree hc,
      List.count_cons, List.count_cons]
    omega
  | found body rest hc ih =>
    rw [replaceAll_commentText hc, findAll_commentText hc, List.count_append, List.count_append,
      count_commentText, count_commentElement, List.length_cons]
    omega

theorem not_commented_of_length {cs : List Char} (h : (findAll comment cs).length = 0) : ¬ Commented cs :=
  (findAll_comment_eq_nil_iff cs).1 (List.length_eq_zero_iff.1 h)

end BoardMarkup.Style
