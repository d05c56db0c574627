import BoardMarkup.Text.Pieces

/-! What finders find, one position after the other. -/
namespace BoardMarkup.Text

variable {α : Type} {f : Finder α}

theorem piecesFrom_skip (f : Finder α) (before : List Char) (skip : Nat) (cs : List Char) :
    piecesFrom f before skip cs =
      piecesFrom f ((cs.take skip).reverse ++ before) 0 (cs.drop skip) := by
  induction cs generalizing before skip with
  | nil => simp [piecesFrom]
  | cons c cs ih =>
    cases skip with
    | zero => rfl
    | succ skip => simp [piecesFrom, ih]

/-- What is found depends only on the characters that follow. -/
def Finder.ContextFree (f : Finder α) : Prop := ∀ before other cs, f before cs = f other cs

theorem piecesFrom_eq_drop (h : f.ContextFree) (before other : List Char) (skip : Nat)
    (cs : List Char) : piecesFrom f before skip cs = piecesFrom f other 0 (cs.drop skip) := by
  induction cs generalizing before other skip with
  | nil => rw [List.drop_nil, piecesFrom, piecesFrom]
  | cons c cs ih =>
    cases skip with
    | succ skip => rw [piecesFrom, List.drop_succ_cons, ih _ other]
    | zero =>
      rw [List.drop_zero, piecesFrom, piecesFrom, h before other]
      cases f other (c :: cs) with
      | none => exact congrArg _ ((ih _ (c :: other) 0).trans (ih _ _ 0).symm)
      | some found => exact congrArg _ ((ih _ (c :: other) _).trans (ih _ _ _).symm)

theorem pieces_cons_of_none (h : f.ContextFree) {c : Char} {cs : List Char}
    (hf : f [] (c :: cs) = none) : pieces f (c :: cs) = .plain c :: pieces f cs := by
  rw [pieces, piecesFrom, hf]
  exact congrArg _ (piecesFrom_eq_drop h _ _ 0 cs)

theorem pieces_cons_of_some (h : f.ContextFree) {c : Char} {cs : List Char} {a : α} {n : Nat}
    (hf : f [] (c :: cs) = some (a, n)) :
    pieces f (c :: cs) = .found a :: pieces f (cs.drop (n - 1)) := by
  rw [pieces, piecesFrom, hf]
  exact congrArg _ (piecesFrom_eq_drop h _ _ _ cs)

/-- What is found is a whole text that stands for it. -/
def Finder.Takes (f : Finder α) (stands : List Char → α → Prop) : Prop :=
  ∀ cs a n, f [] cs = some (a, n) → ∃ text rest, cs = text ++ rest ∧ n = text.length ∧
    text ≠ [] ∧ stands text a

/-- Either a text begins with a find, which is taken as a whole, or with a character that stays. -/
@[elab_as_elim]
theorem find_induction {stands : List Char → α → Prop} (h : f.Takes stands) {motive : List Char → Prop}
    (nil : motive []) (plain : ∀ c cs, f [] (c :: cs) = none → motive cs → motive (c :: cs))
    (found : ∀ text rest a, text ≠ [] → stands text a → f [] (text ++ rest) = some (a, text.length) →
      motive rest → motive (text ++ rest)) (cs : List Char) : motive cs := by
  -- a find is passed over whole, so the induction is on the length
  induction hn : cs.length using Nat.strongRecOn generalizing cs with
  | ind n ih =>
    cases cs with
    | nil => exact nil
    | cons c cs =>
      cases hf : f [] (c :: cs) with
      | none => exact plain c cs hf (ih cs.length (by simp [← hn]) cs rfl)
      | some result =>
        obtain ⟨a, k⟩ := result
        obtain ⟨text, rest, he, rfl, hne, hstands⟩ := h _ a k hf
        have hpos : 0 < text.length := List.length_pos_iff.2 hne
        have hlength : rest.length < n := by
          rw [← hn, he, List.length_append]
          omega
        rw [he] at hf ⊢
        exact found text rest a hne hstands hf (ih rest.length hlength rest rfl)

/-- Where no find reaches from one text into the next, each is searched on its own. -/
theorem pieces_append (h : f.ContextFree) {ys : List Char} (hstop : ∀ xs, f [] (xs ++ ys) = f [] xs)
    (hfit : ∀ cs a n, f [] cs = some (a, n) → 0 < n ∧ n ≤ cs.length) (xs : List Char) :
    pieces f (xs ++ ys) = pieces f xs ++ pieces f ys := by
  induction hn : xs.length using Nat.strongRecOn generalizing xs with
  | ind n ih =>
    cases xs with
    | nil => rfl
    | cons x xs =>
      rw [List.length_cons] at hn
      have hsame : f [] (x :: (xs ++ ys)) = f [] (x :: xs) := hstop (x :: xs)
      cases he : f [] (x :: xs) with
      | none =>
        rw [he] at hsame
        rw [List.cons_append, pieces_cons_of_none h hsame, pieces_cons_of_none h he,
          ih xs.length (by omega) xs rfl, List.cons_append]
      | some found =>
        obtain ⟨a, k⟩ := found
        rw [he] at hsame
        obtain ⟨hpos, hle⟩ := hfit _ a k he
        rw [List.length_cons] at hle
        have hlength : (xs.drop (k - 1)).length < n := by
          rw [List.length_drop]
          omega
        rw [List.cons_append, pieces_cons_of_some h hsame, pieces_cons_of_some h he,
          List.drop_append_of_le_length (by omega), ih _ hlength _ rfl, List.cons_append]

/-- A character at which no find begins and over which none reaches parts the texts around it. -/
theorem pieces_append_cons (h : f.ContextFree) {d : Char} (hstop : ∀ xs ys, f [] (xs ++ d :: ys) = f [] xs)
    (hfit : ∀ cs a n, f [] cs = some (a, n) → 0 < n ∧ n ≤ cs.length) (xs ys : List Char) :
    pieces f (xs ++ d :: ys) = pieces f xs ++ .plain d :: pieces f ys := by
  have hempty : f [] [] = none := by
    rw [Option.eq_none_iff_forall_ne_some]
    rintro ⟨a, n⟩ he
    obtain ⟨hpos, hle⟩ := hfit [] a n he
    exact absurd hpos (by simpa using hle)
  have hnone : f [] (d :: ys) = none := by rw [← List.nil_append (d :: ys), hstop, hempty]
  rw [pieces_append h (fun xs => hstop xs ys) hfit, pieces_cons_of_none h hnone]

theorem findAll_nil (f : Finder α) : findAll f [] = [] := rfl

theorem findAll_cons_of_none (h : f.ContextFree) {c : Char} {cs : List Char}
    (hf : f [] (c :: cs) = none) : findAll f (c :: cs) = findAll f cs := by
  rw [findAll, pieces_cons_of_none h hf]
  rfl

theorem findAll_cons_of_some (h : f.ContextFree) {c : Char} {cs : List Char} {a : α} {n : Nat}
    (hf : f [] (c :: cs) = some (a, n)) :
    findAll f (c :: cs) = a :: findAll f (cs.drop (n - 1)) := by
  rw [findAll, pieces_cons_of_some h hf]
  rfl

theorem replaceAll_cons_of_none (h : f.ContextFree) {g : α → List Char} {c : Char} {cs : List Char}
    (hf : f [] (c :: cs) = none) : replaceAll f g (c :: cs) = c :: replaceAll f g cs := by
  rw [replaceAll, pieces_cons_of_none h hf]
  rfl

private theorem replaceAll_cons_of_some (h : f.ContextFree) {g : α → List Char} {c : Char} {cs : List Char}
    {a : α} {n : Nat} (hf : f [] (c :: cs) = some (a, n)) :
    replaceAll f g (c :: cs) = g a ++ replaceAll f g (cs.drop (n - 1)) := by
  rw [replaceAll, pieces_cons_of_some h hf]
  rfl

/-- A find that takes a whole text is replaced, and the search goes on behind it. -/
theorem replaceAll_append_of_some (h : f.ContextFree) (g : α → List Char) {xs ys : List Char}
    {a : α} (hne : xs ≠ [])
    (hf : f [] (xs ++ ys) = some (a, xs.length)) : replaceAll f g (xs ++ ys) = g a ++ replaceAll f g ys := by
  obtain ⟨c, cs, rfl⟩ := List.exists_cons_of_ne_nil hne
  rw [List.cons_append] at hf ⊢
  rw [replaceAll_cons_of_some h hf, List.length_cons, Nat.add_sub_cancel, List.drop_left]

theorem pieces_append_of_none (h : f.ContextFree) {xs : List Char}
    (hx : ∀ c ∈ xs, ∀ cs, f [] (c :: cs) = none) (ys : List Char) :
    pieces f (xs ++ ys) = xs.map .plain ++ pieces f ys := by
  induction xs with
  | nil => rfl
  | cons x xs ih =>
    rw [List.cons_append, pieces_cons_of_none h (hx x (by simp) _), ih fun c hc => hx c (.tail _ hc),
      List.map_cons, List.cons_append]

theorem replaceAll_append_of_none (h : f.ContextFree) (g : α → List Char) {xs : List Char}
    (hx : ∀ c ∈ xs, ∀ cs, f [] (c :: cs) = none) (ys : List Char) :
    replaceAll f g (xs ++ ys) = xs ++ replaceAll f g ys := by
  rw [replaceAll, pieces_append_of_none h hx, List.flatMap_append, List.flatMap_map]
  exact congrArg (· ++ _) (List.flatMap_singleton' xs)

theorem replaceAll_append_cons (h : f.ContextFree) (g : α → List Char) {d : Char}
    (hstop : ∀ xs ys, f [] (xs ++ d :: ys) = f [] xs)
    (hfit : ∀ cs a n, f [] cs = some (a, n) → 0 < n ∧ n ≤ cs.length) (xs ys : List Char) :
    replaceAll f g (xs ++ d :: ys) = replaceAll f g xs ++ d :: replaceAll f g ys := by
  rw [replaceAll, pieces_append_cons h hstop hfit, List.flatMap_append]
  rfl

theorem findAll_append (h : f.ContextFree) {ys : List Char} (hstop : ∀ xs, f [] (xs ++ ys) = f [] xs)
    (hfit : ∀ cs a n, f [] cs = some (a, n) → 0 < n ∧ n ≤ cs.length) (xs : List Char) :
    findAll f (xs ++ ys) = findAll f xs ++ findAll f ys := by
  rw [findAll, pieces_append h hstop hfit, List.filterMap_append]
  rfl

theorem findAll_append_cons (h : f.ContextFree) {d : Char} (hstop : ∀ xs ys, f [] (xs ++ d :: ys) = f [] xs)
    (hfit : ∀ cs a n, f [] cs = some (a, n) → 0 < n ∧ n ≤ cs.length) (xs ys : List Char) :
    findAll f (xs ++ d :: ys) = findAll f xs ++ findAll f ys := by
  rw [findAll, pieces_append_cons h hstop hfit, List.filterMap_append]
  rfl

theorem findAll_append_of_none (h : f.ContextFree) {xs : List Char}
    (hx : ∀ c ∈ xs, ∀ cs, f [] (c :: cs) = none) (ys : List Char) : findAll f (xs ++ ys) = findAll f ys := by
  rw [findAll, pieces_append_of_none h hx, List.filterMap_append, List.filterMap_map]
  exact congrArg (· ++ _) (List.filterMap_eq_nil_iff.2 fun _ _ => rfl)

theorem findAll_eq_nil_iff (h : f.ContextFree) (hempty : f [] [] = none) {cs : List Char} :
    findAll f cs = [] ↔ ∀ rest, rest <:+ cs → f [] rest = none := by
  induction cs with
  | nil => simp [findAll_nil, hempty]
  | cons c cs ih =>
    simp only [List.suffix_cons_iff, forall_eq_or_imp, ← ih]
    cases hf : f [] (c :: cs) with
    | none => simp [findAll_cons_of_none h hf]
    | some found => simp [findAll_cons_of_some h (a := found.1) (n := found.2) hf]

private theorem exists_of_mem_piecesFrom {a : α} {before cs : List Char} {skip : Nat}
    (h : .found a ∈ piecesFrom f before skip cs) : ∃ before rest n, f before rest = some (a, n) := by
  induction cs generalizing before skip with
  | nil => simp [piecesFrom] at h
  | cons c cs ih =>
    cases skip with
    | succ skip => exact ih h
    | zero =>
      rw [piecesFrom] at h
      cases hf : f before (c :: cs) with
      | none =>
        rw [hf] at h
        exact ih ((List.mem_cons.1 h).resolve_left (by simp))
      | some found =>
        rw [hf] at h
        rcases List.mem_cons.1 h with he | h
        · cases he
          exact ⟨before, c :: cs, found.2, hf⟩
        · exact ih h

theorem exists_of_mem_findAll {a : α} {cs : List Char} (h : a ∈ findAll f cs) :
    ∃ before rest n, f before rest = some (a, n) := by
  obtain ⟨p, hp, he⟩ := List.mem_filterMap.1 h
  cases p with
  | plain c => cases he
  | found b =>
    cases he
    exact exists_of_mem_piecesFrom hp

private theorem piecesFrom_eq_map_plain {before cs : List Char}
    (h : ∀ before rest, rest <:+ cs → f before rest = none) :
    piecesFrom f before 0 cs = cs.map .plain := by
  induction cs generalizing before with
  | nil => rfl
  | cons c cs ih =>
    rw [piecesFrom, h before (c :: cs) (List.suffix_refl _)]
    exact congrArg _ (ih fun before rest hr => h before rest (hr.trans (List.suffix_cons c cs)))

theorem replaceAll_eq_self {g : α → List Char} {cs : List Char}
    (h : ∀ before rest, rest <:+ cs → f before rest = none) : replaceAll f g cs = cs := by
  rw [replaceAll, pieces, piecesFrom_eq_map_plain h, List.flatMap_map]
  exact List.flatMap_singleton' cs

end BoardMarkup.Text
