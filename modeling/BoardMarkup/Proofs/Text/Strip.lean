import BoardMarkup.Proofs.Text.Cut
import BoardMarkup.Text.Trim
import Mathlib.Data.List.TakeWhile

/-! What is stripped from the ends of a text, and what is left. -/
namespace BoardMarkup.Text

theorem head?_dropWhile {p : Char → Bool} {cs : List Char} {c : Char} (h : (cs.dropWhile p).head? = some c) :
    p c = false := by
  have hhead := List.head?_dropWhile_not p cs
  simpa [h] using hhead

theorem head?_reverse_eq_some_iff {c : Char} {cs : List Char} : cs.reverse.head? = some c ↔ [c] <:+ cs := by
  rw [List.head?_reverse, List.getLast?_eq_some_iff]
  exact ⟨fun ⟨xs, h⟩ => ⟨xs, h.symm⟩, fun ⟨xs, h⟩ => ⟨xs, h.symm⟩⟩

theorem exists_eq_takeWhile_append {d : Char} {cs : List Char}
    (h : (cs.takeWhile (· != d)).length < cs.length) : ∃ rest, cs = cs.takeWhile (· != d) ++ d :: rest := by
  have hall := List.takeWhile_append_dropWhile (p := (· != d)) (l := cs)
  cases hrest : cs.dropWhile (· != d) with
  | nil =>
    rw [hrest, List.append_nil] at hall
    rw [hall] at h
    exact absurd h (lt_irrefl _)
  | cons c rest =>
    have hfirst : (cs.dropWhile (· != d)).head? = some c := by rw [hrest, List.head?_cons]
    have hc : (c != d) = false := head?_dropWhile (p := (· != d)) hfirst
    rw [hrest, bne_eq_false_iff_eq.1 hc] at hall
    exact ⟨rest, hall.symm⟩

/-- What is left at the front does not end in a stripped character, and all behind it are. -/
theorem dropEndWhile_eq_iff {p : Char → Bool} {cs kept : List Char} : dropEndWhile p cs = kept ↔
    ∃ tail, cs = kept ++ tail ∧ (∀ c ∈ tail, p c) ∧ ∀ c, kept.getLast? = some c → p c = false := by
  constructor
  · rintro rfl
    refine ⟨(cs.reverse.takeWhile p).reverse, ?_,
      fun c hc => List.mem_takeWhile_imp (List.mem_reverse.1 hc), ?_⟩
    · rw [dropEndWhile, ← List.reverse_append, List.takeWhile_append_dropWhile, List.reverse_reverse]
    · intro c hc
      rw [dropEndWhile, List.getLast?_reverse] at hc
      exact head?_dropWhile hc
  · rintro ⟨tail, rfl, htail, hlast⟩
    have hrest : kept.reverse.dropWhile p = kept.reverse := by
      cases hr : kept.reverse with
      | nil => rfl
      | cons c cs =>
        have hc : kept.getLast? = some c := by rw [← List.head?_reverse, hr, List.head?_cons]
        exact List.dropWhile_cons_of_neg (by simp [hlast c hc])
    rw [dropEndWhile, List.reverse_append,
      List.dropWhile_append_of_pos fun c hc => htail c (List.mem_reverse.1 hc),
      hrest, List.reverse_reverse]

theorem dropEndWhile_eq_self {p : Char → Bool} {cs : List Char} {c : Char}
    (h : cs.getLast? = some c) (hc : p c = false) : dropEndWhile p cs = cs := by
  obtain ⟨before, rfl⟩ := List.getLast?_eq_some_iff.1 h
  simp [dropEndWhile, hc]

/-- Nothing is stripped beyond a character that stays. -/
theorem dropEndWhile_append_cons {p : Char → Bool} {x : Char} (h : p x = false) (xs ys : List Char) :
    dropEndWhile p (xs ++ x :: ys) = xs ++ x :: dropEndWhile p ys := by
  simp [dropEndWhile, dropWhile_append_cons h]

theorem stripWhile_append_cons {p : Char → Bool} {x : Char} (h : p x = false) (xs ys : List Char) :
    stripWhile p (xs ++ x :: ys) = xs.dropWhile p ++ x :: dropEndWhile p ys := by
  rw [stripWhile, dropWhile_append_cons h, dropEndWhile_append_cons h]

theorem stripWhile_eq_self {p : Char → Bool} {cs : List Char} (hfirst : ∀ c, cs.head? = some c → p c = false)
    (hlast : ∀ c, cs.getLast? = some c → p c = false) : stripWhile p cs = cs := by
  have hd : cs.dropWhile p = cs := by
    cases cs with
    | nil => rfl
    | cons c cs => exact List.dropWhile_cons_of_neg (by simp [hfirst c rfl])
  rw [stripWhile, hd]
  exact dropEndWhile_eq_iff.2 ⟨[], (List.append_nil cs).symm, List.forall_mem_nil _, hlast⟩

theorem stripWhile_eq_self_of_forall {p : Char → Bool} {cs : List Char} (h : ∀ c ∈ cs, p c = false) :
    stripWhile p cs = cs :=
  stripWhile_eq_self (fun c hc => h c (List.mem_of_head? hc)) fun c hc => h c (List.mem_of_getLast? hc)

theorem head?_stripWhile {p : Char → Bool} {cs : List Char} {c : Char}
    (h : (stripWhile p cs).head? = some c) : p c = false := by
  have hstart : stripWhile p cs <+: cs.dropWhile p := by
    rw [stripWhile, dropEndWhile, ← List.reverse_suffix, List.reverse_reverse]
    exact List.dropWhile_suffix _
  obtain ⟨last, hlast⟩ := hstart
  have hfirst : (cs.dropWhile p).head? = some c := by
    rw [← hlast, List.head?_append, h]
    rfl
  exact head?_dropWhile hfirst

theorem getLast?_stripWhile {p : Char → Bool} {cs : List Char} {c : Char}
    (h : (stripWhile p cs).getLast? = some c) : p c = false := by
  rw [stripWhile, dropEndWhile, List.getLast?_reverse] at h
  exact head?_dropWhile h

theorem stripWhile_stripWhile (p : Char → Bool) (cs : List Char) :
    stripWhile p (stripWhile p cs) = stripWhile p cs :=
  stripWhile_eq_self (fun _ => head?_stripWhile) fun _ => getLast?_stripWhile

theorem notMem_of_forall_isBlank {cs : List Char} (h : ∀ c ∈ cs, isBlank c) {c : Char}
    (hc : isBlank c = false) : c ∉ cs := fun hm => by
  rw [h c hm] at hc
  cases hc

theorem eq_append_stripWhile (p : Char → Bool) (cs : List Char) : ∃ start last,
    cs = start ++ stripWhile p cs ++ last ∧ (∀ c ∈ start, p c) ∧ ∀ c ∈ last, p c := by
  refine ⟨cs.takeWhile p, ((cs.dropWhile p).reverse.takeWhile p).reverse, ?_, fun c hc =>
    List.mem_takeWhile_imp hc, fun c hc => List.mem_takeWhile_imp (List.mem_reverse.1 hc)⟩
  rw [stripWhile, dropEndWhile, List.append_assoc, ← List.reverse_append,
    List.takeWhile_append_dropWhile, List.reverse_reverse, List.takeWhile_append_dropWhile]

end BoardMarkup.Text
