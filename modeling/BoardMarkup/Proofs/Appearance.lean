import Mathlib.Data.List.Basic
import Mathlib.Data.List.Induction

/-! The different elements of a list in the order in which they first appear, and sorts that keep it. -/
namespace BoardMarkup

/-- Of two different elements one stands before the other. -/
theorem pair_sublist_or {α : Type} {xs : List α} {x y : α} (hx : x ∈ xs) (hy : y ∈ xs) (hne : x ≠ y) :
    [x, y].Sublist xs ∨ [y, x].Sublist xs := by
  obtain ⟨before, behind, rfl⟩ := List.append_of_mem hx
  have hother : y ∈ before ∨ y ∈ behind := by simpa [hne.symm] using hy
  rcases hother with hy | hy
  · have hx : [x].Sublist (x :: behind) := (List.nil_sublist behind).cons_cons x
    exact .inr ((List.singleton_sublist.2 hy).append hx)
  · have hxy : [x, y].Sublist (x :: behind) := (List.singleton_sublist.2 hy).cons_cons x
    exact .inl (hxy.trans (List.sublist_append_right before _))

variable {α : Type} [DecidableEq α]

theorem eraseDups_concat (xs : List α) (x : α) :
    (xs ++ [x]).eraseDups = xs.eraseDups ++ if x ∈ xs then [] else [x] := by
  rw [List.eraseDups_append, List.removeAll]
  by_cases hx : x ∈ xs <;> simp [hx, List.eraseDups_cons]

/-- What is kept of a list stands in the order of first appearance. -/
theorem pairwise_eraseDups (xs : List α) :
    xs.eraseDups.Pairwise fun x y => xs.idxOf x < xs.idxOf y := by
  induction xs using List.reverseRecOn with
  | nil => simp
  | append_singleton xs z ih =>
    have hold : ∀ {x}, x ∈ xs.eraseDups → (xs ++ [z]).idxOf x = xs.idxOf x :=
      fun hx => List.idxOf_append_of_mem (List.mem_eraseDups.1 hx)
    rw [eraseDups_concat, List.pairwise_append]
    refine ⟨ih.imp_of_mem fun hx hy h => ?_, ?_, fun x hx y hy => ?_⟩
    · rwa [hold hx, hold hy]
    · split <;> simp
    · split at hy
      · cases hy
      · next hz =>
        -- the last element is new, so it appears behind all others
        have hlast : (xs ++ [y]).idxOf y = xs.length := by
          rw [List.mem_singleton.1 hy, List.idxOf_append_of_notMem hz]
          simp
        rw [← List.mem_singleton.1 hy] at hold ⊢
        rw [hold hx, hlast]
        exact List.idxOf_lt_length_of_mem (List.mem_eraseDups.1 hx)

theorem nodup_eraseDups (xs : List α) : xs.eraseDups.Nodup := by
  apply (pairwise_eraseDups xs).imp
  intro x y h he
  rw [he] at h
  exact Nat.lt_irrefl _ h

variable {xs : List α}

theorem pairwise_idxOf (h : xs.Nodup) : xs.Pairwise fun x y => xs.idxOf x < xs.idxOf y := by
  rw [List.pairwise_iff_getElem]
  intro i j hi hj hij
  rwa [h.idxOf_getElem, h.idxOf_getElem]

/-- Sorting keeps any order of the elements between those that it does not tell apart. -/
theorem pairwise_mergeSort_keep (le : α → α → Bool) {R : α → α → Prop}
    (htrans : ∀ a b c, le a b = true → le b c = true → le a c = true)
    (htotal : ∀ a b, (le a b || le b a) = true) (hn : xs.Nodup) (hR : xs.Pairwise R) :
    (xs.mergeSort le).Pairwise fun x y => le x y = true ∧ (le y x = true → R x y) := by
  have hsorted := List.pairwise_mergeSort htrans htotal xs
  have hperm : (xs.mergeSort le).Perm xs := List.mergeSort_perm xs le
  have hplaces := pairwise_idxOf (hperm.nodup_iff.2 hn)
  rw [List.pairwise_iff_forall_sublist] at hsorted hplaces hR ⊢
  intro x y hxy
  refine ⟨hsorted hxy, fun hback => ?_⟩
  have hlt := hplaces hxy
  have hne : x ≠ y := fun he => by simp [he] at hlt
  have hx : x ∈ xs := hperm.mem_iff.1 (hxy.subset (by simp))
  have hy : y ∈ xs := hperm.mem_iff.1 (hxy.subset (by simp))
  rcases pair_sublist_or hx hy hne with h | h
  · exact hR h
  · have hgt := hplaces (List.pair_sublist_mergeSort htrans htotal hback h)
    omega

end BoardMarkup
