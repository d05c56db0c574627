import BoardMarkup.Proofs.Style.Normalization
import BoardMarkup.Proofs.Text.Removal
import BoardMarkup.Style.Fragment

/-! Which indentation is removed from the body of a fragment, and that none is left. -/
namespace BoardMarkup.Style

open Text

/-- A line break and any number of tabs that fill the space between a tag and the next one. -/
def IsIndent (before run rest : List Char) : Prop :=
  ['>'] <:+ before ∧ (∃ n, run = '\n' :: List.replicate n '\t') ∧ ['<'] <+: rest

private theorem exists_eq_replicate_iff {c d : Char} {run : List Char} :
    (∃ n, run = c :: List.replicate n d) ↔ run = c :: List.replicate (run.length - 1) d := by
  constructor
  · rintro ⟨n, rfl⟩
    simp
  · exact fun h => ⟨_, h⟩

instance (before run rest : List Char) : Decidable (IsIndent before run rest) :=
  have : Decidable (∃ n, run = '\n' :: List.replicate n '\t') := decidable_of_iff' _ exists_eq_replicate_iff
  inferInstanceAs (Decidable (_ ∧ _))

theorem IsIndent.congr {before other run rest : List Char} (h : IsIndent before run rest)
    (hlast : before.getLast? = other.getLast?) : IsIndent other run rest := by
  obtain ⟨hfirst, hrun, hrest⟩ := h
  refine ⟨?_, hrun, hrest⟩
  rw [← head?_reverse_eq_some_iff, List.head?_reverse] at hfirst ⊢
  rw [← hlast, hfirst]

theorem tagIndent_eq_some_iff {before cs : List Char} {n : Nat} : tagIndent before cs = some ((), n) ↔
    ∃ run rest, cs = run ++ rest ∧ n = run.length ∧ IsIndent before.reverse run rest := by
  constructor
  · intro h
    unfold tagIndent at h
    split at h
    · next before rest =>
      dsimp only at h
      split at h
      · next hless =>
        have hn : (rest.takeWhile (· == '\t')).length + 1 = n := congrArg Prod.snd (Option.some.inj h)
        have htabs : rest.takeWhile (· == '\t') = List.replicate (rest.takeWhile (· == '\t')).length '\t' :=
          List.eq_replicate_iff.2 ⟨rfl, fun c hc => by simpa using List.mem_takeWhile_imp hc⟩
        rw [drop_length_takeWhile] at hless
        obtain ⟨tail, htail⟩ := List.head?_eq_some_iff.1 hless
        refine ⟨'\n' :: rest.takeWhile (· == '\t'), rest.dropWhile (· == '\t'), ?_, hn.symm, ?_, ?_,
          tail, htail.symm⟩
        · rw [List.cons_append, List.takeWhile_append_dropWhile]
        · exact ⟨before.reverse, List.reverse_cons.symm⟩
        · exact ⟨_, congrArg _ htabs⟩
      · cases h
    · cases h
  · rintro ⟨_, _, rfl, rfl, hfirst, ⟨k, rfl⟩, tail, rfl⟩
    rw [← head?_reverse_eq_some_iff, List.reverse_reverse] at hfirst
    obtain ⟨before, rfl⟩ := List.head?_eq_some_iff.1 hfirst
    have hrun : (List.replicate k '\t' ++ '<' :: tail).takeWhile (· == '\t') = List.replicate k '\t' := by
      rw [takeWhile_append_cons (by decide), List.takeWhile_eq_self_iff]
      intro c hc
      simp [List.eq_of_mem_replicate hc]
    simp [tagIndent, hrun]

theorem tagIndent_findsRuns : tagIndent.FindsRuns IsIndent fun c => c == '\n' || c == '\t' where
  found before run rest h := tagIndent_eq_some_iff.2 ⟨run, rest, rfl, rfl, by rwa [List.reverse_reverse]⟩
  is_run _ _ _ := tagIndent_eq_some_iff.1
  ne_nil _ _ _ h := by
    obtain ⟨-, ⟨n, rfl⟩, -⟩ := h
    exact List.cons_ne_nil _ _
  filled _ _ _ h := by
    obtain ⟨-, ⟨n, rfl⟩, -⟩ := h
    intro c hc
    rcases List.mem_cons.1 hc with rfl | hc
    · rfl
    · rw [List.eq_of_mem_replicate hc]
      rfl
  ends _ _ _ h := by
    obtain ⟨-, -, tail, rfl⟩ := h
    exact ⟨'<', tail, rfl, by decide⟩

theorem tagIndent_of_head {before : List Char} (h : before.head? ≠ some '>') (cs : List Char) :
    tagIndent before cs = none := by
  rw [Option.eq_none_iff_forall_ne_some]
  rintro ⟨u, n⟩ hfound
  obtain ⟨run, rest, -, -, hfirst, -⟩ := tagIndent_eq_some_iff.1 hfound
  rw [← head?_reverse_eq_some_iff, List.reverse_reverse] at hfirst
  exact h hfirst

private theorem tagIndent_of_ne {c : Char} (h : c ≠ '\n') (before cs : List Char) :
    tagIndent before (c :: cs) = none := by
  rw [Option.eq_none_iff_forall_ne_some]
  rintro ⟨u, n⟩ hfound
  obtain ⟨_, rest, hcs, -, -, ⟨k, rfl⟩, -⟩ := tagIndent_eq_some_iff.1 hfound
  exact h (List.cons.inj hcs).1

/-- Tabs that are left and do not stand behind a tag were there before, with the character behind them. -/
theorem eq_of_withoutFinds_tabs {before cs tail : List Char} (hhead : before.head? ≠ some '>') {n : Nat}
    (h : withoutFinds tagIndent before cs = List.replicate n '\t' ++ '<' :: tail) :
    ∃ tail, cs = List.replicate n '\t' ++ '<' :: tail := by
  induction n generalizing before cs with
  | zero =>
    cases cs with
    | nil => cases h
    | cons c cs =>
      rw [withoutFinds_cons_of_none (tagIndent_of_head hhead _)] at h
      exact ⟨cs, by rw [(List.cons.inj h).1]; rfl⟩
  | succ n ih =>
    cases cs with
    | nil => cases h
    | cons c cs =>
      rw [withoutFinds_cons_of_none (tagIndent_of_head hhead _), List.replicate_succ, List.cons_append] at h
      obtain ⟨rfl, h⟩ := List.cons.inj h
      obtain ⟨tail, rfl⟩ := ih (by simp) h
      exact ⟨tail, rfl⟩

/-- No indentation arises where some was removed. -/
theorem not_isIndent_withoutFinds {before cs xs run rest : List Char}
    (h : withoutFinds tagIndent before cs = xs ++ (run ++ rest)) :
    ¬ IsIndent (before.reverse ++ xs) run rest := by
  induction before, cs using withoutFinds_induction tagIndent_findsRuns generalizing xs with
  | nil before =>
    rintro ⟨-, ⟨n, rfl⟩, -⟩
    simp [withoutFinds, piecesFrom] at h
  | keep before c cs hnone he ih =>
    rw [he] at h
    cases xs with
    | nil =>
      rintro ⟨hfirst, ⟨n, rfl⟩, tail, rfl⟩
      rw [List.append_nil] at hfirst
      obtain ⟨rfl, hrest⟩ := List.cons.inj h
      obtain ⟨tail, rfl⟩ := eq_of_withoutFinds_tabs (by simp) hrest
      have hfound : tagIndent before ('\n' :: (List.replicate n '\t' ++ '<' :: tail)) = some ((), n + 1) :=
        tagIndent_eq_some_iff.2
          ⟨'\n' :: List.replicate n '\t', '<' :: tail, rfl, by simp, hfirst, ⟨n, rfl⟩, tail, rfl⟩
      rw [hnone] at hfound
      cases hfound
    | cons x xs =>
      obtain ⟨rfl, hrest⟩ := List.cons.inj h
      have hnot := ih hrest
      rwa [List.reverse_cons, List.append_assoc, List.singleton_append] at hnot
  | skip before indent last hkind he ih =>
    obtain ⟨-, ⟨n, rfl⟩, tail, rfl⟩ := hkind
    rw [he] at h
    cases xs with
    | nil =>
      -- what is left begins with a tag
      rintro ⟨-, ⟨m, rfl⟩, -⟩
      rw [List.singleton_append, withoutFinds_cons_of_none (tagIndent_of_ne (by decide) _ _)] at h
      exact absurd (List.cons.inj h).1 (by decide)
    | cons x xs =>
      refine fun hindent => ih h (hindent.congr ?_)
      rw [List.getLast?_append, List.getLast?_append, List.getLast?_cons, Option.some_or, Option.some_or]

/-- The characters outside of indentation are left, so nothing else changes, and all of it is gone. -/
theorem toList_normalizeFragment (body : String) :
    (normalizeFragment body).toList = outsideRuns IsIndent (trim body).toList := by
  rw [normalizeFragment, trim, String.toList_ofList, String.toList_ofList,
    replaceAll_eq_outsideRuns tagIndent_findsRuns]

private theorem trimmed_normalizeFragment (body : String) : Trimmed (normalizeFragment body).toList := by
  have hbefore : ∀ run rest, ¬ IsIndent [] run rest := by
    rintro run rest ⟨hfirst, -⟩
    simp at hfirst
  have hbehind : ∀ before run, ¬ IsIndent before run [] := by
    rintro before run ⟨-, -, hrest⟩
    simp at hrest
  have hbody : Trimmed (trim body).toList := by
    rw [trim, String.toList_ofList]
    exact trimmed_stripWhile body.toList
  rw [toList_normalizeFragment]
  exact (trimmed_congr (head?_outsideRuns hbefore _) (getLast?_outsideRuns hbehind _)).2 hbody

theorem not_isIndent_normalizeFragment {body : String} {before run rest : List Char}
    (h : (normalizeFragment body).toList = before ++ (run ++ rest)) : ¬ IsIndent before run rest := by
  rw [normalizeFragment, String.toList_ofList, replaceAll_eq_withoutFinds] at h
  exact not_isIndent_withoutFinds h

/--
A body loses the blanks at its ends and the indentation between its tags, and nothing else. What is left
neither begins nor ends with a blank, holds no indentation, and is not changed by normalizing it again.
-/
theorem fragment_loses_indentation (body : String) :
    (normalizeFragment body).toList = outsideRuns IsIndent (trim body).toList ∧
    Trimmed (normalizeFragment body).toList ∧
    (∀ before run rest, (normalizeFragment body).toList = before ++ (run ++ rest) →
      ¬ IsIndent before run rest) ∧
    normalizeFragment (normalizeFragment body) = normalizeFragment body := by
  have htrim := trimmed_normalizeFragment body
  refine ⟨toList_normalizeFragment body, htrim, fun _ _ _ => not_isIndent_normalizeFragment, ?_⟩
  rw [← String.toList_inj, toList_normalizeFragment, trim, String.toList_ofList, stripWhile_of_trimmed htrim,
    outsideRuns_eq_self fun _ _ _ => not_isIndent_normalizeFragment]

end BoardMarkup.Style
