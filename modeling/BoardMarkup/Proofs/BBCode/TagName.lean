import BoardMarkup.Proofs.BBCode.Usage
import BoardMarkup.Proofs.Text.CharSet
import BoardMarkup.Proofs.Text.Cut
import BoardMarkup.Proofs.Text.Find
import BoardMarkup.Proofs.Text.Strip

/-! Names of BBCodes and of their tags, and where a usage gives them. -/
namespace BoardMarkup.BBCode

open Text

def tagNameSign : List Char := ['$', 't', 'a', 'g', 'N', 'a', 'm', 'e', '=']

def startsTagName (c : Char) : Bool := isLetter c || c == '_'

def isTagNameChar (c : Char) : Bool := isLetter c || c.isDigit || c == '_' || c == ':'

def isNameChar (c : Char) : Bool := isLetter c || c.isDigit || c == '_'

theorem startsTagName_le {c : Char} (h : startsTagName c = true) : isTagNameChar c = true := by
  simp only [startsTagName, Bool.or_eq_true] at h
  simp only [isTagNameChar, Bool.or_eq_true]
  tauto

theorem isNameChar_le {c : Char} (h : isNameChar c = true) : isTagNameChar c = true := by
  rw [isTagNameChar, Bool.or_eq_true]
  exact .inl h

theorem isTagNameChar_of_isBlank {c : Char} (h : isBlank c = true) : isTagNameChar c = false := by
  obtain ⟨r, hr, hfirst, hbehind⟩ := CharSet.exists_range h
  have hapart : ∀ r ∈ rangesOf blanks.bounds, r.2 ≤ 48 ∨ 123 ≤ r.1 := by decide
  rw [Bool.eq_false_iff]
  intro hc
  have hin : 48 ≤ c.toNat ∧ c.toNat < 123 := by
    simp only [isTagNameChar, isLetter, Bool.or_eq_true, beq_iff_eq] at hc
    rcases hc with (((h | h) | h) | rfl) | rfl
    · have := toNat_of_isUpper h
      omega
    · have := toNat_of_isLower h
      omega
    · have := toNat_of_isDigit h
      omega
    · decide
    · decide
  rcases hapart r hr with hd | hd <;> omega

theorem toUpper_ne_asterisk {c : Char} (h : startsTagName c = true) : c.toUpper ≠ '*' := by
  intro he
  have hv := congrArg (fun c => c.val.toNat) he
  unfold Char.toUpper at he hv
  split at hv
  · next hc =>
    simp only [UInt32.le_iff_toNat_le] at hc
    simp at hv hc
    omega
  · next hc =>
    rw [dif_neg hc] at he
    subst he
    cases h

section Given

theorem givenTagName_contextFree : givenTagName.ContextFree := fun _ _ _ => rfl

theorem givenTagName_eq_some_iff {before cs name : List Char} {n : Nat} :
    givenTagName before cs = some (name, n) ↔
      ∃ first rest, cs = tagNameSign ++ first :: rest ∧ startsTagName first = true ∧
        name = first :: rest.takeWhile isTagNameChar ∧ n = 9 + name.length := by
  constructor
  · intro h
    obtain ⟨tail, htail, h⟩ := Option.bind_eq_some_iff.1 h
    cases tail with
    | nil => cases h
    | cons first rest =>
      dsimp only at h
      split at h
      · next hfirst =>
        cases h
        exact ⟨first, rest, after?_eq_some_iff.1 htail, hfirst, rfl, rfl⟩
      · cases h
  · rintro ⟨first, rest, rfl, hfirst, rfl, rfl⟩
    rw [givenTagName]
    change (after? tagNameSign _).bind _ = _
    rw [after?_append, Option.bind_some]
    exact if_pos hfirst

theorem givenTagName_nil (before : List Char) : givenTagName before [] = none := rfl

theorem givenTagName_of_ne {c : Char} (h : c ≠ '$') (before cs : List Char) :
    givenTagName before (c :: cs) = none := by
  rw [Option.eq_none_iff_forall_ne_some]
  rintro ⟨name, n⟩ he
  obtain ⟨first, rest, hcs, -⟩ := givenTagName_eq_some_iff.1 he
  exact h (List.cons.inj hcs).1

private theorem givenTagName_fits (cs name : List Char) (n : Nat) (h : givenTagName [] cs = some (name, n)) :
    0 < n ∧ n ≤ cs.length := by
  obtain ⟨first, rest, rfl, -, rfl, rfl⟩ := givenTagName_eq_some_iff.1 h
  have hrun := (List.takeWhile_prefix (p := isTagNameChar) (l := rest)).length_le
  simp only [List.length_cons, List.length_append, tagNameSign, List.length_nil]
  omega

private theorem givenTagName_append_cons {d : Char} (hsign : d ∉ tagNameSign)
    (hname : isTagNameChar d = false)
    (xs ys : List Char) : givenTagName [] (xs ++ d :: ys) = givenTagName [] xs := by
  have hstart : ¬ startsTagName d = true := fun h => by simp [startsTagName_le h] at hname
  have hafter : after? tagNameSign (xs ++ d :: ys) = (after? tagNameSign xs).map (· ++ d :: ys) :=
    after?_append_cons hsign xs ys
  change (after? tagNameSign (xs ++ d :: ys)).bind _ = (after? tagNameSign xs).bind _
  rw [hafter]
  cases after? tagNameSign xs with
  | none => rfl
  | some tail =>
    cases tail with
    | nil => exact if_neg hstart
    | cons first rest =>
      have hrun : (rest ++ d :: ys).takeWhile isTagNameChar = rest.takeWhile isTagNameChar :=
        takeWhile_append_cons hname rest ys
      change (if startsTagName first then some (first :: (rest ++ d :: ys).takeWhile isTagNameChar,
        9 + (first :: (rest ++ d :: ys).takeWhile isTagNameChar).length) else none) = _
      rw [hrun]
      rfl

theorem findAll_givenTagName_append_cons {d : Char} (hsign : d ∉ tagNameSign)
    (hname : isTagNameChar d = false) (xs ys : List Char) :
    findAll givenTagName (xs ++ d :: ys) = findAll givenTagName xs ++ findAll givenTagName ys :=
  findAll_append_cons givenTagName_contextFree (givenTagName_append_cons hsign hname) givenTagName_fits xs ys

theorem findAll_givenTagName_plain {xs : List Char} (h : '$' ∉ xs) (ys : List Char) :
    findAll givenTagName (xs ++ ys) = findAll givenTagName ys :=
  findAll_append_of_none givenTagName_contextFree
    (fun _ hc _ => givenTagName_of_ne (fun he => h (he ▸ hc)) _ _) ys

/-- Whether a text holds the sign with a name behind it. -/
def GivesTagName (cs : List Char) : Prop :=
  ∃ before first rest, cs = before ++ tagNameSign ++ first :: rest ∧ startsTagName first = true

theorem findAll_givenTagName_eq_nil_iff {cs : List Char} :
    findAll givenTagName cs = [] ↔ ¬ GivesTagName cs := by
  rw [findAll_eq_nil_iff givenTagName_contextFree (givenTagName_nil [])]
  constructor
  · rintro h ⟨before, first, rest, rfl, hfirst⟩
    have hnone := h (tagNameSign ++ first :: rest) ⟨before, by rw [List.append_assoc]⟩
    rw [givenTagName_eq_some_iff.2 ⟨first, rest, rfl, hfirst, rfl, rfl⟩] at hnone
    cases hnone
  · rintro h rest ⟨before, rfl⟩
    rw [Option.eq_none_iff_forall_ne_some]
    rintro ⟨name, n⟩ he
    obtain ⟨first, tail, rfl, hfirst, -⟩ := givenTagName_eq_some_iff.1 he
    exact h ⟨before, first, tail, by rw [List.append_assoc], hfirst⟩

end Given

section Body

variable {usage : String}

theorem findAll_givenTagName_bodyOf (usage : String) :
    findAll givenTagName (bodyOf usage) = findAll givenTagName usage.toList := by
  obtain ⟨start, last, he, hstart, hlast⟩ := eq_append_stripWhile isBlank usage.toList
  have hopen : '$' ∉ start := notMem_of_forall_isBlank hstart (by decide)
  rw [bodyOf]
  generalize stripWhile isBlank usage.toList = body at he ⊢
  rw [he, List.append_assoc, findAll_givenTagName_plain hopen]
  cases last with
  | nil => rw [List.append_nil]
  | cons d last =>
    have hd : isBlank d = true := hlast d (by simp)
    have hsign : d ∉ tagNameSign := fun hm => by
      have hplain : tagNameSign.all (!isBlank ·) = true := by decide
      simpa [hd] using List.all_eq_true.1 hplain d hm
    have hnone : findAll givenTagName last = [] := by
      have hrest : '$' ∉ last := notMem_of_forall_isBlank (fun c hc => hlast c (.tail _ hc)) (by decide)
      rw [← List.append_nil last, findAll_givenTagName_plain hrest, findAll_nil]
    rw [findAll_givenTagName_append_cons hsign (isTagNameChar_of_isBlank hd), hnone, List.append_nil]

theorem header?_cons {c : Char} (h : isLetter c = true) (cs : List Char) :
    header? ('[' :: c :: cs) = some (c :: cs.takeWhile isNameChar) := by
  rw [header?, if_pos h]
  · rfl
  · rintro rfl
    cases h

/-- A name: a letter, then letters, digits and underscores. -/
def IsName (name : List Char) : Prop :=
  ∃ first rest, name = first :: rest ∧ isLetter first = true ∧ ∀ c ∈ rest, isNameChar c = true

/-- Whether a text does not go on with a name before it. -/
def EndsName (cs : List Char) : Prop := ∀ c, cs.head? = some c → isNameChar c = false

theorem header?_append {name cs : List Char} (hn : IsName name) (hcs : EndsName cs) :
    header? ('[' :: name ++ cs) = some name := by
  obtain ⟨first, rest, rfl, hfirst, hrest⟩ := hn
  have hstop : cs.takeWhile isNameChar = [] := by
    cases cs with
    | nil => rfl
    | cons c cs => exact List.takeWhile_cons_of_neg (by simp [hcs c rfl])
  rw [List.cons_append, List.cons_append, header?_cons hfirst, List.takeWhile_append_of_pos hrest, hstop,
    List.append_nil]

theorem isTagNameChar_of_mem_name {name : List Char} (hn : IsName name) {c : Char} (hc : c ∈ name) :
    isTagNameChar c = true := by
  obtain ⟨first, rest, rfl, hfirst, hrest⟩ := hn
  rcases List.mem_cons.1 hc with rfl | hc
  · exact startsTagName_le (by rw [startsTagName, hfirst, Bool.true_or])
  · exact isNameChar_le (hrest c hc)

/-- The name of a BBCode is not cut with the blanks behind its usage. -/
theorem header?_bodyOf {name cs : List Char} (hn : IsName name) (hcs : EndsName cs)
    (h : usage.toList = '[' :: name ++ cs) : header? (bodyOf usage) = some name := by
  obtain ⟨start, last, he, hstart, hlast⟩ := eq_append_stripWhile isBlank usage.toList
  rw [bodyOf]
  generalize stripWhile isBlank usage.toList = body at he ⊢
  have hfirst : start = [] := by
    cases start with
    | nil => rfl
    | cons c start =>
      rw [h] at he
      have hc : isBlank c = true := hstart c (by simp)
      rw [← (List.cons.inj he).1] at hc
      cases hc
  rw [h, hfirst, List.nil_append] at he
  rcases List.append_eq_append_iff.1 he with ⟨mid, rfl, rfl⟩ | ⟨mid, hmid, rfl⟩
  · refine header?_append hn fun c hc => hcs c ?_
    rw [List.head?_append, hc]
    rfl
  · -- what is cut is blank, and nothing in a name is
    cases mid with
    | nil =>
      rw [List.append_nil] at hmid
      rw [← hmid, ← List.append_nil ('[' :: name)]
      exact header?_append hn fun c hc => by cases hc
    | cons c mid =>
      have hc : isBlank c = true := hlast c (by simp)
      have hm : c ∈ '[' :: name := by simp [hmid]
      rcases List.mem_cons.1 hm with rfl | hm
      · cases hc
      · have hname := isTagNameChar_of_mem_name hn hm
        rw [isTagNameChar_of_isBlank hc] at hname
        cases hname

end Body

end BoardMarkup.BBCode
