import BoardMarkup.Proofs.BBCode.Tokens
import BoardMarkup.Proofs.BBCode.Usage
import BoardMarkup.Proofs.Text.Strip

/-! Where a usage declares tokens. -/
namespace BoardMarkup.BBCode

open Text

/-- What is read as the declaration of a token: an id, and what may follow one up to the closing brace. -/
structure IsDeclaration (d : List Char × List Char) : Prop where
  id : IsTokenId d.1
  mark : d.2 = [] ∨ d.2.head? = some ';' ∨ d.2.head? = some '='
  unclosed : '}' ∉ d.2

def declarationText (d : List Char × List Char) : List Char := '{' :: (d.1 ++ d.2) ++ ['}']

theorem length_declarationText (d : List Char × List Char) :
    (declarationText d).length = d.1.length + d.2.length + 2 := by
  simp [declarationText]
  omega

theorem declaration_contextFree : declaration.ContextFree := fun _ _ _ => rfl

theorem declaration_of_ne {c : Char} (h : c ≠ '{') (before cs : List Char) :
    declaration before (c :: cs) = none := by
  rw [declaration]
  intro rest he
  exact h (List.cons.inj he).1

theorem IsDeclaration.tokenId? {d : List Char × List Char} (hd : IsDeclaration d) (rest : List Char) :
    tokenId? (d.1 ++ (d.2 ++ '}' :: rest)) = some d.1 := by
  obtain ⟨c, tail, htail, hc⟩ : ∃ c tail, d.2 ++ '}' :: rest = c :: tail ∧ isIdChar c = false := by
    rcases hd.mark with h | h | h
    · exact ⟨'}', rest, by rw [h, List.nil_append], by decide⟩
    · obtain ⟨tail, htail⟩ := List.head?_eq_some_iff.1 h
      exact ⟨';', _, by rw [htail, List.cons_append], by decide⟩
    · obtain ⟨tail, htail⟩ := List.head?_eq_some_iff.1 h
      exact ⟨'=', _, by rw [htail, List.cons_append], by decide⟩
  rw [htail, tokenId?_append_cons hc, tokenId?_self_iff.2 hd.id]

theorem declaration_eq_some_iff {before cs : List Char} {d : List Char × List Char} {n : Nat} :
    declaration before cs = some (d, n) ↔
      IsDeclaration d ∧ (∃ rest, cs = declarationText d ++ rest) ∧ n = (declarationText d).length := by
  constructor
  · intro h
    cases cs with
    | nil => cases h
    | cons c cs =>
      by_cases hc : c = '{'
      · subst hc
        unfold declaration at h
        obtain ⟨id, hid, h⟩ := Option.bind_eq_some_iff.1 h
        obtain ⟨⟨tail, rfl⟩, -⟩ := tokenId?_eq_some hid
        rw [List.drop_left] at h
        dsimp only at h
        split at h
        · next hextra =>
          cases h
          have hunclosed : '}' ∉ tail.takeWhile (· != '}') := fun hm => by
            simpa using List.mem_takeWhile_imp hm
          obtain ⟨rest, hrest⟩ := exists_eq_takeWhile_append hextra.2
          refine ⟨⟨isTokenId_of_tokenId? hid, hextra.1, hunclosed⟩, ⟨rest, ?_⟩,
            by simp [length_declarationText]⟩
          conv_lhs => rw [hrest]
          simp [declarationText]
        · cases h
      · rw [declaration_of_ne hc] at h
        cases h
  · rintro ⟨hd, ⟨rest, rfl⟩, rfl⟩
    obtain ⟨id, extra⟩ := d
    have hid : BBCode.tokenId? (id ++ (extra ++ '}' :: rest)) = some id := hd.tokenId? rest
    have hextra : (extra ++ '}' :: rest).takeWhile (· != '}') = extra := by
      rw [takeWhile_append_cons (by decide), List.takeWhile_eq_self_iff]
      exact fun c hc => bne_iff_ne.2 fun he => hd.unclosed (he ▸ hc)
    have hmark : extra = [] ∨ extra.head? = some ';' ∨ extra.head? = some '=' := hd.mark
    have hcs : declarationText (id, extra) ++ rest = '{' :: (id ++ (extra ++ '}' :: rest)) := by
      simp [declarationText]
    rw [hcs, declaration, hid]
    simp only [Option.bind_eq_bind, Option.bind_some, List.drop_left, hextra]
    rw [if_pos ⟨hmark, by simp⟩, length_declarationText]
    rfl

section FindAll

/-- A declaration reaches only to the first closing brace. -/
theorem declaration_append {ys : List Char} (h : '}' ∉ ys) (xs : List Char) :
    declaration [] (xs ++ ys) = declaration [] xs := by
  refine Option.ext fun ⟨d, n⟩ => ?_
  rw [declaration_eq_some_iff, declaration_eq_some_iff]
  refine and_congr_right fun _ => and_congr_left fun _ => ⟨?_, ?_⟩
  · rintro ⟨rest, he⟩
    rcases List.append_eq_append_iff.1 he with ⟨mid, hd, hy⟩ | ⟨mid, hx, -⟩
    · rcases List.eq_nil_or_concat mid with rfl | ⟨start, last, rfl⟩
      · exact ⟨[], by rw [List.append_nil, hd, List.append_nil]⟩
      · rw [List.concat_eq_append, declarationText, ← List.append_assoc] at hd
        have hl := List.append_inj_right' hd rfl
        cases hl
        exact absurd (by simp [hy]) h
    · exact ⟨mid, hx⟩
  · rintro ⟨rest, rfl⟩
    exact ⟨rest ++ ys, List.append_assoc ..⟩

theorem declaration_fits (cs : List Char) (d : List Char × List Char) (n : Nat)
    (h : declaration [] cs = some (d, n)) : 0 < n ∧ n ≤ cs.length := by
  obtain ⟨-, ⟨rest, rfl⟩, rfl⟩ := declaration_eq_some_iff.1 h
  rw [List.length_append]
  exact ⟨by simp [length_declarationText], Nat.le_add_right _ _⟩

theorem findAll_declaration_plain {xs : List Char} (h : '{' ∉ xs) (ys : List Char) :
    findAll declaration (xs ++ ys) = findAll declaration ys :=
  findAll_append_of_none declaration_contextFree
    (fun _ hc _ => declaration_of_ne (fun he => h (he ▸ hc)) _ _) ys

theorem findAll_declarationText {d : List Char × List Char} (hd : IsDeclaration d) (ys : List Char) :
    findAll declaration (declarationText d ++ ys) = d :: findAll declaration ys := by
  have hfound : declaration [] (declarationText d ++ ys) = some (d, (declarationText d).length) :=
    declaration_eq_some_iff.2 ⟨hd, ⟨ys, rfl⟩, rfl⟩
  have hcons : declarationText d ++ ys = '{' :: (d.1 ++ d.2 ++ ['}'] ++ ys) := rfl
  rw [hcons] at hfound ⊢
  rw [findAll_cons_of_some declaration_contextFree hfound]
  have hlength : (declarationText d).length - 1 = (d.1 ++ d.2 ++ ['}']).length := rfl
  rw [hlength, List.drop_left]

/-- No declaration is lost with the blanks around a usage. -/
theorem findAll_declaration_bodyOf (usage : String) :
    findAll declaration (bodyOf usage) = findAll declaration usage.toList := by
  obtain ⟨start, last, he, hstart, hlast⟩ := eq_append_stripWhile isBlank usage.toList
  have hopen : '{' ∉ start := notMem_of_forall_isBlank hstart (by decide)
  have hclose : '}' ∉ last := notMem_of_forall_isBlank hlast (by decide)
  have hnone : findAll declaration last = [] := by
    rw [← List.append_nil last, findAll_declaration_plain (notMem_of_forall_isBlank hlast (by decide)),
      findAll_nil]
  rw [bodyOf]
  generalize stripWhile isBlank usage.toList = body at he ⊢
  rw [he, List.append_assoc, findAll_declaration_plain hopen,
    findAll_append declaration_contextFree (declaration_append hclose) declaration_fits, hnone,
      List.append_nil]

end FindAll

/-- The declarations of a text, read from left to right: each is the first one behind the one before it. -/
inductive Declares : List Char → List (List Char × List Char) → Prop
  | nil : Declares [] []
  | skip {c : Char} {cs : List Char} {ds : List (List Char × List Char)}
      (plain : ∀ d rest, IsDeclaration d → c :: cs ≠ declarationText d ++ rest) (tail : Declares cs ds) :
      Declares (c :: cs) ds
  | token {d : List Char × List Char} {cs : List Char} {ds : List (List Char × List Char)}
      (head : IsDeclaration d) (tail : Declares cs ds) : Declares (declarationText d ++ cs) (d :: ds)

theorem Declares.findAll_eq {cs : List Char} {ds : List (List Char × List Char)} (h : Declares cs ds) :
    findAll declaration cs = ds := by
  induction h with
  | nil => rfl
  | @skip c cs ds plain _ ih =>
    have hnone : declaration [] (c :: cs) = none := by
      rw [Option.eq_none_iff_forall_ne_some]
      rintro ⟨d, n⟩ hd
      obtain ⟨hd, ⟨rest, he⟩, -⟩ := declaration_eq_some_iff.1 hd
      exact plain d rest hd he
    rw [findAll_cons_of_none declaration_contextFree hnone, ih]
  | token head _ ih => rw [findAll_declarationText head, ih]

private theorem declaration_takes : declaration.Takes fun text d =>
    text = declarationText d ∧ IsDeclaration d := by
  intro cs d n h
  obtain ⟨hd, ⟨rest, rfl⟩, rfl⟩ := declaration_eq_some_iff.1 h
  exact ⟨declarationText d, rest, rfl, rfl, List.cons_ne_nil _ _, rfl, hd⟩

private theorem declares_findAll (cs : List Char) : Declares cs (findAll declaration cs) := by
  induction cs using find_induction declaration_takes with
  | nil => exact .nil
  | plain c cs hfind ih =>
    rw [findAll_cons_of_none declaration_contextFree hfind]
    refine .skip (fun d rest hd he => ?_) ih
    have hs : declaration [] (c :: cs) = some (d, _) := declaration_eq_some_iff.2 ⟨hd, ⟨rest, he⟩, rfl⟩
    rw [hfind] at hs
    cases hs
  | found text rest d hne htext hfind ih =>
    obtain ⟨rfl, hd⟩ := htext
    rw [findAll_declarationText hd]
    exact .token hd ih

/-- Every text has its declarations, and no others. -/
theorem declares_iff {cs : List Char} {ds : List (List Char × List Char)} :
    Declares cs ds ↔ findAll declaration cs = ds :=
  ⟨Declares.findAll_eq, fun h => h ▸ declares_findAll cs⟩

end BoardMarkup.BBCode
