import BoardMarkup.Proofs.Style.SwitchMarkup

/-! Searching a choice for what stands between braces: each of its texts is searched on its own. -/
namespace BoardMarkup.Style

open Text

/-- Whether finds begin with a brace, and reach over no bracket. -/
structure BraceFinder {α : Type} (f : Finder α) : Prop where
  contextFree : f.ContextFree
  starts : ∀ c ≠ '{', ∀ cs, f [] (c :: cs) = none
  stops : ∀ xs ys, f [] (xs ++ '<' :: ys) = f [] xs
  fits : ∀ cs a n, f [] cs = some (a, n) → 0 < n ∧ n ≤ cs.length

theorem brace_notMem_when {condition : List Char} (h : '{' ∉ condition) :
    '{' ∉ '<' :: whenContent condition ++ ['>'] := by
  simp [whenContent, h]

namespace BraceFinder

variable {α : Type} {f : Finder α} (h : BraceFinder f)

include h

section Replacing

variable (g : α → List Char)

theorem replaceAll_skip {xs : List Char} (hx : '{' ∉ xs) (ys : List Char) :
    replaceAll f g (xs ++ ys) = xs ++ replaceAll f g ys := by
  refine replaceAll_append_of_none h.contextFree g (fun c hc => h.starts c ?_) ys
  rintro rfl
  exact hx hc

theorem replaceAll_less (xs ys : List Char) :
    replaceAll f g (xs ++ '<' :: ys) = replaceAll f g xs ++ '<' :: replaceAll f g ys :=
  replaceAll_append_cons h.contextFree g h.stops h.fits xs ys

private theorem replaceAll_branchText {b : List Char × List Char} (hb : '{' ∉ b.1) (rest : List Char) :
    replaceAll f g (branchText b ++ rest) = branchText (b.1, replaceAll f g b.2) ++ replaceAll f g rest := by
  rw [branchText_append, h.replaceAll_skip g (brace_notMem_when hb), h.replaceAll_less,
    h.replaceAll_skip g (by decide), branchText_append]

private theorem replaceAll_otherwiseText (cs rest : List Char) :
    replaceAll f g (otherwiseText cs ++ rest) = otherwiseText (replaceAll f g cs) ++ replaceAll f g rest := by
  rw [otherwiseText_append, h.replaceAll_skip g (by decide), h.replaceAll_less,
    h.replaceAll_skip g (by decide),
    otherwiseText_append]

/-- In a choice the texts are replaced one by one. -/
theorem replaceAll_chooseText {branches : List (List Char × List Char)} (hb : ∀ b ∈ branches, '{' ∉ b.1)
    (otherwise : List Char) : replaceAll f g (chooseText branches otherwise) =
      chooseText (branches.map fun b => (b.1, replaceAll f g b.2)) (replaceAll f g otherwise) := by
  have hbranches : ∀ rest, replaceAll f g (branches.flatMap branchText ++ rest) =
      (branches.map fun b => (b.1, replaceAll f g b.2)).flatMap branchText ++ replaceAll f g rest := by
    intro rest
    induction branches with
    | nil => rfl
    | cons b branches ih =>
      rw [List.flatMap_cons, List.append_assoc, h.replaceAll_branchText g (hb b (by simp)),
        ih fun c hc => hb c (.tail _ hc), List.map_cons, List.flatMap_cons, List.append_assoc]
  have hend :
      replaceAll f g ('<' :: '/' :: chooseContent ++ ['>']) = '<' :: '/' :: chooseContent ++ ['>'] := by
    rw [← List.append_nil ('<' :: '/' :: chooseContent ++ ['>']), h.replaceAll_skip g (by decide)]
    rfl
  rw [chooseText_eq, h.replaceAll_skip g (by decide), hbranches, h.replaceAll_otherwiseText, hend,
    chooseText_eq]

end Replacing

section Finding

theorem findAll_skip {xs : List Char} (hx : '{' ∉ xs) (ys : List Char) :
    findAll f (xs ++ ys) = findAll f ys := by
  refine findAll_append_of_none h.contextFree (fun c hc => h.starts c ?_) ys
  rintro rfl
  exact hx hc

theorem findAll_eq_nil {xs : List Char} (hx : '{' ∉ xs) : findAll f xs = [] := by
  rw [← List.append_nil xs, h.findAll_skip hx, findAll_nil]

theorem findAll_less (xs ys : List Char) : findAll f (xs ++ '<' :: ys) = findAll f xs ++ findAll f ys :=
  findAll_append_cons h.contextFree h.stops h.fits xs ys

private theorem findAll_branchText {b : List Char × List Char} (hb : '{' ∉ b.1) (rest : List Char) :
    findAll f (branchText b ++ rest) = findAll f b.2 ++ findAll f rest := by
  rw [branchText_append, h.findAll_skip (brace_notMem_when hb), h.findAll_less, h.findAll_skip (by decide)]

/-- In a choice just that is found which is found in its texts. -/
theorem findAll_chooseText {branches : List (List Char × List Char)} (hb : ∀ b ∈ branches, '{' ∉ b.1)
    (otherwise : List Char) : findAll f (chooseText branches otherwise) =
      (branches.map (·.2) ++ [otherwise]).flatMap (findAll f) := by
  have hbranches : ∀ rest, findAll f (branches.flatMap branchText ++ rest) =
      (branches.map (·.2)).flatMap (findAll f) ++ findAll f rest := by
    intro rest
    induction branches with
    | nil => rfl
    | cons b branches ih =>
      rw [List.flatMap_cons, List.append_assoc, h.findAll_branchText (hb b (by simp)),
        ih fun c hc => hb c (.tail _ hc), List.map_cons, List.flatMap_cons, List.append_assoc]
  have hend : '{' ∉ '/' :: otherwiseContent ++ ['>'] ++ ('<' :: '/' :: chooseContent ++ ['>']) := by decide
  rw [chooseText_eq, h.findAll_skip (by decide), hbranches, otherwiseText_append, h.findAll_skip (by decide),
    h.findAll_less, h.findAll_eq_nil hend, List.append_nil, List.flatMap_append, List.flatMap_singleton]

end Finding

end BraceFinder

end BoardMarkup.Style
