import BoardMarkup.Proofs.Style.Comment
import BoardMarkup.Proofs.Style.ElementSpace

/-! Blanks and comments together: templates for which nothing is left to normalize. -/
namespace BoardMarkup.Style

open Text

section Squeeze

variable {before cs : List Char} {d : Char}

theorem exists_squeeze_append_cons (hd : isMarkupBlank d = false) (before xs ys : List Char) :
    ∃ kept, squeeze before (xs ++ d :: ys) = kept ++ d :: squeeze (d :: (xs.reverse ++ before)) ys := by
  obtain ⟨kept, hkept⟩ := squeeze_concat before xs d
  exact ⟨kept, by rw [squeeze_append_cons hd, hkept, List.append_assoc, List.singleton_append]⟩

theorem squeeze_eq_append_cons {kept rest : List Char} (h : squeeze before cs = kept ++ d :: rest) :
    ∃ xs ys, cs = xs ++ d :: ys ∧ rest = squeeze (d :: (xs.reverse ++ before)) ys := by
  induction before, cs using squeeze_induction generalizing kept with
  | nil before => simp [squeeze_nil] at h
  | keep before c cs hnone he ih =>
    rw [he] at h
    cases kept with
    | nil =>
      obtain ⟨rfl, rfl⟩ := List.cons.inj h
      exact ⟨[], cs, rfl, rfl⟩
    | cons k kept =>
      obtain ⟨xs, ys, rfl, hrest⟩ := ih (List.cons.inj h).2
      exact ⟨c :: xs, ys, rfl, by simpa using hrest⟩
  | skip before run rest hne hblank he ih =>
    rw [he] at h
    cases kept with
    | nil =>
      obtain ⟨rfl, rfl⟩ := List.cons.inj h
      exact ⟨run, _, rfl, rfl⟩
    | cons k kept =>
      obtain ⟨xs, ys, rfl, hrest⟩ := ih (List.cons.inj h).2
      exact ⟨run ++ '<' :: xs, ys, by simp, by simpa using hrest⟩

/-- Comments neither appear nor disappear where blanks are removed. -/
theorem commented_squeeze_iff (before cs : List Char) : Commented (squeeze before cs) ↔ Commented cs := by
  constructor
  · rintro ⟨start, body, rest, he⟩
    have hopen : squeeze before cs = start ++
        '<' :: ('!' :: '-' :: '-' :: (body ++ '-' :: '-' :: '>' :: rest)) := by
      rw [he]
      simp [commentText, commentMark, commentEnd]
    obtain ⟨xs, ys₁, rfl, h₁⟩ := squeeze_eq_append_cons hopen
    obtain ⟨ys₂, rfl, h₂⟩ := squeeze_eq_cons h₁.symm (by decide)
    obtain ⟨ys₃, rfl, h₃⟩ := squeeze_eq_cons h₂.symm (by decide)
    obtain ⟨ys₄, rfl, h₄⟩ := squeeze_eq_cons h₃.symm (by decide)
    obtain ⟨inside, zs₁, rfl, h₅⟩ := squeeze_eq_append_cons h₄.symm
    obtain ⟨zs₂, rfl, h₆⟩ := squeeze_eq_cons h₅.symm (by decide)
    obtain ⟨zs₃, rfl, -⟩ := squeeze_eq_cons h₆.symm (by decide)
    exact ⟨xs, inside, zs₃, by simp [commentText, commentMark, commentEnd]⟩
  · rintro ⟨start, body, rest, rfl⟩
    have hopen : start ++ commentText body ++ rest =
        start ++ '<' :: '!' :: '-' :: '-' :: (body ++ '-' :: '-' :: '>' :: rest) := by
      simp [commentText, commentMark, commentEnd]
    obtain ⟨kept, hkept⟩ := exists_squeeze_append_cons (d := '<') (by decide) before start
      ('!' :: '-' :: '-' :: (body ++ '-' :: '-' :: '>' :: rest))
    rw [squeeze_notBlank (by decide), squeeze_notBlank (by decide), squeeze_notBlank (by decide)] at hkept
    obtain ⟨inside, hinside⟩ := exists_squeeze_append_cons (d := '-') (by decide)
      ('-' :: '-' :: '!' :: '<' :: (start.reverse ++ before)) body ('-' :: '>' :: rest)
    rw [squeeze_notBlank (by decide), squeeze_notBlank (by decide)] at hinside
    rw [hopen, hkept, hinside]
    refine ⟨kept, inside, squeeze ('>' :: '-' :: '-' :: (body.reverse ++
      '-' :: '-' :: '!' :: '<' :: (start.reverse ++ before))) rest, ?_⟩
    simp [commentText, commentMark, commentEnd]

end Squeeze

section Transpose

theorem transpose_cons {c : Char} {cs : List Char} (h : comment [] (c :: cs) = none) :
    Pass.transposeComments.apply (c :: cs) = c :: Pass.transposeComments.apply cs := by
  rw [apply_transposeComments, apply_transposeComments, replaceAll_cons_of_none comment_contextFree h]

theorem transpose_commentText {body rest : List Char}
    (h : comment [] (commentText body ++ rest) = some (body, (commentText body).length)) :
    Pass.transposeComments.apply (commentText body ++ rest) =
      commentElement body ++ Pass.transposeComments.apply rest := by
  rw [apply_transposeComments, apply_transposeComments, replaceAll_commentText h]

theorem head?_transpose (cs : List Char) : (Pass.transposeComments.apply cs).head? = cs.head? := by
  induction cs using comment_induction with
  | nil => rfl
  | plain c cs hc ih => rw [transpose_cons hc, List.head?_cons, List.head?_cons]
  | found body rest hc ih =>
    rw [transpose_commentText hc]
    rfl

theorem getLast?_transpose (cs : List Char) : (Pass.transposeComments.apply cs).getLast? = cs.getLast? := by
  induction cs using comment_induction with
  | nil => rfl
  | plain c cs hc ih => rw [transpose_cons hc, List.getLast?_cons, List.getLast?_cons, ih]
  | found body rest hc ih =>
    have hend : (commentElement body).getLast? = (commentText body).getLast? := by
      have htext : (commentText body).getLast? = some '>' := by
        rw [commentText, List.getLast?_append]
        rfl
      rw [htext, commentElement, List.getLast?_append]
      rfl
    rw [transpose_commentText hc, List.getLast?_append, List.getLast?_append, ih, hend]

/-- The same blanks stand before the same character. -/
theorem elementSpace_transpose (before cs : List Char) :
    elementSpace before (Pass.transposeComments.apply cs) = elementSpace before cs := by
  have hrun : (Pass.transposeComments.apply cs).takeWhile isMarkupBlank = cs.takeWhile isMarkupBlank ∧
      ((Pass.transposeComments.apply cs).dropWhile isMarkupBlank).head? =
        (cs.dropWhile isMarkupBlank).head? := by
    induction cs using comment_induction with
    | nil => exact ⟨rfl, rfl⟩
    | plain c cs hc ih =>
      rw [transpose_cons hc]
      cases hb : isMarkupBlank c with
      | true =>
        rw [List.takeWhile_cons_of_pos hb, List.takeWhile_cons_of_pos hb, List.dropWhile_cons_of_pos hb,
          List.dropWhile_cons_of_pos hb, ih.1]
        exact ⟨rfl, ih.2⟩
      | false =>
        have hneg : ¬ isMarkupBlank c = true := by simp [hb]
        rw [List.takeWhile_cons_of_neg hneg, List.takeWhile_cons_of_neg hneg,
          List.dropWhile_cons_of_neg hneg, List.dropWhile_cons_of_neg hneg]
        exact ⟨rfl, rfl⟩
    | found body rest hc ih =>
      rw [transpose_commentText hc]
      exact ⟨rfl, rfl⟩
  rw [elementSpace_eq, elementSpace_eq, hrun.1, hrun.2]

private theorem tight_commentElement {other body rest : List Char} :
    Tight other (commentElement body ++ rest) ↔
    Tight [] (commentElement body) ∧ Tight ((commentElement body).reverse ++ other) rest := by
  obtain ⟨inner, hinner⟩ : ∃ inner, commentElement body = '<' :: inner ++ ['>'] := by
    refine ⟨['x', 's', 'l', ':', 'c', 'o', 'm', 'm', 'e', 'n', 't', '>'] ++ body ++
      ['<', '/', 'x', 's', 'l', ':', 'c', 'o', 'm', 'm', 'e', 'n', 't'], ?_⟩
    simp [commentElement]
  have hless : Tight other ('<' :: inner ++ ['>']) ↔ Tight [] ('<' :: inner ++ ['>']) := by
    rw [List.cons_append, Tight, Tight, elementSpace_of_notBlank (by decide),
      elementSpace_of_notBlank (by decide), tight_congr (alike_less other [])]
  rw [hinner, List.append_assoc, List.singleton_append, tight_append_cons (by decide), hless]
  simp

/--
Where blanks were removed, only those inside of comments are left that would be removed from the
elements.
-/
theorem tight_transpose {before other cs : List Char} (h : Alike before other) (ht : Tight before cs) :
    Tight other (Pass.transposeComments.apply cs) ↔
      ∀ body ∈ findAll comment cs, Tight [] (commentElement body) := by
  induction cs using comment_induction generalizing before other with
  | nil => simp [findAll_nil, apply_transposeComments, replaceAll, pieces, piecesFrom, Tight]
  | plain c cs hc ih =>
    have hnone : elementSpace other (c :: Pass.transposeComments.apply cs) = none := by
      rw [← transpose_cons hc, elementSpace_transpose, ← h.elementSpace]
      exact ht.1
    rw [transpose_cons hc, findAll_cons_of_none comment_contextFree hc, Tight, ih (h.cons c) ht.2]
    exact and_iff_right hnone
  | found body rest hc ih =>
    have hrest : Tight ((commentText body).reverse ++ before) rest := by
      have hsplit : commentText body ++ rest = commentMark ++ body ++ ['-', '-'] ++ '>' :: rest := by
        simp [commentText, commentEnd]
      rw [hsplit, tight_append_cons (by decide)] at ht
      simpa [commentText, commentEnd] using ht.2
    -- behind the two ends the same blanks would be removed
    have halike : Alike ((commentText body).reverse ++ before) ((commentElement body).reverse ++ other) := by
      have htext : (commentText body).reverse ++ before =
          '>' :: '-' :: '-' :: (body.reverse ++ commentMark.reverse ++ before) := by
        simp [commentText, commentEnd]
      obtain ⟨inner, hinner⟩ : ∃ inner, (commentElement body).reverse ++ other = '>' :: 't' :: 'n' :: inner :=
        ⟨_, by rw [commentElement, List.reverse_append, List.append_assoc]; rfl⟩
      rw [htext, hinner]
      refine alike_of rfl fun k hk => ?_
      interval_cases k <;> rfl
    rw [transpose_commentText hc, findAll_commentText hc, tight_commentElement, ih halike hrest,
      List.forall_mem_cons]

end Transpose

/-- Whether nothing of a text is left for any pass, and no blank at its ends. -/
structure Settled (cs : List Char) : Prop where
  trimmed : Trimmed cs
  uncommented : ¬ Commented cs
  unspaced : ¬ Spaced cs

section Settled

variable {cs : List Char}

theorem isInfix_stripWhile (cs : List Char) : stripWhile isBlank cs <:+: cs := by
  obtain ⟨start, last, hcs, -⟩ := eq_append_stripWhile isBlank cs
  exact ⟨start, last, hcs.symm⟩

theorem squeeze_eq_self_iff_not_spaced : squeeze [] cs = cs ↔ ¬ Spaced cs :=
  squeeze_eq_self_iff.trans tight_iff_not_spaced

theorem trimmed_squeeze_iff : Trimmed (squeeze [] cs) ↔ Trimmed cs :=
  trimmed_congr (head?_squeeze cs) (getLast?_squeeze [] cs)

theorem trimmed_transpose_iff : Trimmed (Pass.transposeComments.apply cs) ↔ Trimmed cs :=
  trimmed_congr (head?_transpose cs) (getLast?_transpose cs)

theorem apply_removeComments_eq_self (h : ¬ Commented cs) : Pass.removeComments.apply cs = cs :=
  replaceAll_comment_eq_self h fun _ => []

theorem apply_transposeComments_of_not_commented (h : ¬ Commented cs) :
    Pass.transposeComments.apply cs = cs := by
  rw [apply_transposeComments, replaceAll_comment_eq_self h]

theorem removeComments_settled_iff :
    squeeze [] (Pass.removeComments.apply (stripWhile isBlank cs)) = cs ↔ Settled cs := by
  constructor
  · intro he
    have hcount := count_removeComments_le (stripWhile isBlank cs)
    have hall : cs.count '<' = (Pass.removeComments.apply (stripWhile isBlank cs)).count '<' := by
      rw [← count_squeeze [] (Pass.removeComments.apply _), he]
    have hstrip : (stripWhile isBlank cs).count '<' ≤ cs.count '<' :=
      (isInfix_stripWhile cs).sublist.count_le '<'
    have hnone : ¬ Commented (stripWhile isBlank cs) := not_commented_of_length (by omega)
    rw [apply_removeComments_eq_self hnone] at he
    have htrim : Trimmed cs := by
      rw [← he, trimmed_squeeze_iff]
      exact trimmed_stripWhile cs
    rw [stripWhile_of_trimmed htrim] at he hnone
    exact ⟨htrim, hnone, squeeze_eq_self_iff_not_spaced.1 he⟩
  · rintro ⟨htrim, hnone, hspace⟩
    rw [stripWhile_of_trimmed htrim, apply_removeComments_eq_self hnone]
    exact squeeze_eq_self_iff_not_spaced.2 hspace

theorem transposeComments_settled_iff :
    Pass.transposeComments.apply (squeeze [] (stripWhile isBlank cs)) = cs ↔ Settled cs := by
  constructor
  · intro he
    have htrim : Trimmed cs := by
      rw [← he, trimmed_transpose_iff, trimmed_squeeze_iff]
      exact trimmed_stripWhile cs
    rw [stripWhile_of_trimmed htrim] at he
    have hcount := count_transposeComments (squeeze [] cs)
    rw [he, count_squeeze] at hcount
    have hnone : ¬ Commented (squeeze [] cs) := not_commented_of_length (by omega)
    rw [apply_transposeComments_of_not_commented hnone] at he
    rw [he] at hnone
    exact ⟨htrim, hnone, squeeze_eq_self_iff_not_spaced.1 he⟩
  · rintro ⟨htrim, hnone, hspace⟩
    rw [stripWhile_of_trimmed htrim, squeeze_eq_self_iff_not_spaced.2 hspace]
    exact apply_transposeComments_of_not_commented hnone

end Settled

end BoardMarkup.Style
