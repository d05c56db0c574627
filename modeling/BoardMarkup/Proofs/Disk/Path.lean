import BoardMarkup.Disk.Path
import BoardMarkup.Proofs.Text.Split

/-! Paths that end in a name. -/
namespace BoardMarkup.Path

open Text

theorem noSlash_of_mem_names {name path : String} (h : name ∈ names path) : '/' ∉ name.toList := by
  obtain ⟨part, hp, rfl⟩ := List.mem_map.1 h
  rw [String.toList_ofList]
  exact notMem_of_mem_split hp

def directoryText (base : String) : List Char :=
  if base = "" ∨ base.toList.getLast? = some '/' then base.toList else base.toList ++ ['/']

theorem directoryText_cases (base : String) :
    directoryText base = [] ∨ ∃ before, directoryText base = before ++ ['/'] := by
  unfold directoryText
  split
  · next h =>
    rcases h with rfl | h
    · exact .inl String.toList_empty
    · obtain ⟨before, hb⟩ := List.getLast?_eq_some_iff.1 h
      exact .inr ⟨before, hb⟩
  · exact .inr ⟨_, rfl⟩

theorem prefix_directoryText (path : String) : path.toList <+: directoryText path := by
  unfold directoryText
  split
  · exact List.prefix_refl _
  · exact List.prefix_append _ _

/-- Whether characters make up one name, which may be that of a file. -/
structure IsName (name : List Char) : Prop where
  ne_nil : name ≠ []
  noSlash : '/' ∉ name
  ne_dot : name ≠ ['.']
  ne_dots : name ≠ ['.', '.']

instance (name : List Char) : Decidable (IsName name) :=
  decidable_of_iff (name ≠ [] ∧ '/' ∉ name ∧ name ≠ ['.'] ∧ name ≠ ['.', '.'])
    ⟨fun ⟨h, h', h'', h'''⟩ => ⟨h, h', h'', h'''⟩,
      fun h => ⟨h.ne_nil, h.noSlash, h.ne_dot, h.ne_dots⟩⟩

section Join

variable {base : String} {name : List Char}

theorem toList_join_of_notMem (h : '/' ∉ name) :
    (join base (String.ofList name)).toList = directoryText base ++ name := by
  have hslash : "/".toList = ['/'] := String.toList_ofList
  have hn : (String.ofList name).toList.head? ≠ some '/' := by
    rw [String.toList_ofList]
    exact fun he => h (List.mem_of_mem_head? he)
  rw [join, if_neg hn, directoryText]
  split <;> simp [hslash]

theorem toList_join (h : IsName name) :
    (join base (String.ofList name)).toList = directoryText base ++ name :=
  toList_join_of_notMem h.noSlash

def directoryNames (base : String) : List String :=
  ((split '/' (directoryText base)).dropLast).map String.ofList

/-- The names of a path are those on the way to what stands below it, but for an empty one at the end. -/
theorem names_eq_or (base : String) (hne : base ≠ "") :
    names base = directoryNames base ∨ names base = directoryNames base ++ [""] := by
  rw [names, directoryNames, directoryText]
  split
  · next hslash =>
    obtain ⟨before, hb⟩ := List.getLast?_eq_some_iff.1 (hslash.resolve_left hne)
    right
    rw [hb, split_append_cons, split, List.dropLast_concat, List.map_append]
    rfl
  · left
    rw [split_append_cons, split, List.dropLast_concat]

theorem names_join_of_notMem (h : '/' ∉ name) :
    names (join base (String.ofList name)) = directoryNames base ++ [String.ofList name] := by
  rw [names, toList_join_of_notMem h, directoryNames]
  rcases directoryText_cases base with hd | ⟨before, hd⟩
  · rw [hd, List.nil_append, split_of_notMem h]
    rfl
  · rw [hd, List.append_assoc, List.singleton_append, split_append_cons, split_append_cons,
      split_of_notMem h, List.map_append]
    simp [split]

theorem names_join (h : IsName name) :
    names (join base (String.ofList name)) = directoryNames base ++ [String.ofList name] :=
  names_join_of_notMem h.noSlash

private theorem dropIdle_reverse (h : IsName name) (before : List Char) :
    dropIdle (name.reverse ++ before) = name.reverse ++ before := by
  cases hr : name.reverse with
  | nil => exact absurd (List.reverse_eq_nil_iff.1 hr) h.ne_nil
  | cons c cs =>
    have hslash : '/' ∉ c :: cs := by
      rw [← hr, List.mem_reverse]
      exact h.noSlash
    simp only [List.mem_cons, not_or] at hslash
    rw [List.cons_append]
    unfold dropIdle
    split
    · next he => exact absurd (List.cons.inj he).1.symm hslash.1
    · next he =>
      obtain ⟨hc, he⟩ := List.cons.inj he
      cases cs with
      | nil => exact absurd (List.reverse_eq_iff.1 hr) (by rw [hc]; exact h.ne_dot)
      | cons d cs =>
        rw [(List.cons.inj he).1] at hslash
        simp at hslash
    · rfl

theorem splitLast_eq (h : IsName name) {path : String} {before : List Char}
    (hp : path.toList = before ++ name) (hb : before = [] ∨ ∃ start, before = start ++ ['/']) :
    splitLast path = (name.reverse, before.reverse) := by
  have htake : (name.reverse ++ before.reverse).takeWhile (· != '/') = name.reverse := by
    have hall : ∀ c ∈ name.reverse, (c != '/') = true := fun c hc => by
      rw [List.mem_reverse] at hc
      exact bne_iff_ne.2 fun e => h.noSlash (e ▸ hc)
    rw [List.takeWhile_append_of_pos hall]
    rcases hb with rfl | ⟨start, rfl⟩ <;> simp
  simp only [splitLast, hp, List.reverse_append, dropIdle_reverse h, htake, List.drop_left]

theorem fileName?_eq (h : IsName name) {path : String} {before : List Char}
    (hp : path.toList = before ++ name) (hb : before = [] ∨ ∃ start, before = start ++ ['/']) :
    fileName? path = some name := by
  rw [fileName?, splitLast_eq h hp hb]
  have hr : ∀ cs, name.reverse = cs → name = cs.reverse := fun cs he => by
    rw [← he, List.reverse_reverse]
  split
  · next he => exact absurd (hr _ he) h.ne_nil
  · next he => exact absurd (hr _ he) h.ne_dot
  · next he => exact absurd (hr _ he) h.ne_dots
  · rw [List.reverse_reverse]

theorem splitLast_join (h : IsName name) :
    splitLast (join base (String.ofList name)) = (name.reverse, (directoryText base).reverse) :=
  splitLast_eq h (toList_join h) (directoryText_cases base)

theorem fileName?_join (h : IsName name) :
    fileName? (join base (String.ofList name)) = some name :=
  fileName?_eq h (toList_join h) (directoryText_cases base)

/-- The directory in which a name below a path is. -/
def holder (base : String) : String := String.ofList (dropIdle (directoryText base).reverse).reverse

theorem parent?_join (h : IsName name) :
    parent? (join base (String.ofList name)) = some (holder base) := by
  rw [parent?, splitLast_join h]
  split
  · next he => exact absurd (List.reverse_eq_nil_iff.1 (congrArg Prod.fst he)) h.ne_nil
  · next he => rw [holder, (Prod.mk.inj he).2]

theorem setExtension_join (h : IsName name) (extension : List Char) :
    setExtension (join base (String.ofList name)) extension =
      String.ofList (directoryText base ++ (splitExtension name).1 ++ '.' :: extension) := by
  rw [setExtension, fileName?_join h, splitLast_join h, List.reverse_reverse]

theorem splitExtension_append {stem extension : List Char} (hs : stem ≠ []) (he : '.' ∉ extension) :
    splitExtension (stem ++ '.' :: extension) = (stem, some extension) := by
  have hafter : ((stem ++ '.' :: extension).reverse.takeWhile (· != '.')).reverse = extension := by
    have hall : ∀ c ∈ extension.reverse, (c != '.') = true := fun c hc => by
      rw [List.mem_reverse] at hc
      exact bne_iff_ne.2 fun e => he (e ▸ hc)
    rw [List.reverse_append, List.reverse_cons, List.append_assoc, List.takeWhile_append_of_pos hall]
    simp
  have htake : (stem ++ '.' :: extension).take
      ((stem ++ '.' :: extension).length - extension.length - 1) = stem := by
    rw [List.take_append_of_le_length (by simp; omega)]
    exact List.take_of_length_le (by simp; omega)
  rw [splitExtension, hafter, htake, if_neg]
  rintro (hl | hl)
  · simp at hl
    omega
  · exact hs hl

theorem isName_append {stem extension : List Char} (hl : 2 ≤ stem.length + extension.length)
    (hs : '/' ∉ stem) (he : '/' ∉ extension) : IsName (stem ++ '.' :: extension) := by
  refine ⟨by simp, by simp [hs, he], fun h => ?_, fun h => ?_⟩ <;>
  · have := congrArg List.length h
    simp at this
    omega

/-- Whether characters still make up a name when there is only a dot behind them. -/
structure IsStem (stem : List Char) : Prop where
  ne_nil : stem ≠ []
  noSlash : '/' ∉ stem
  ne_dot : stem ≠ ['.']

theorem isStem_of_length {stem : List Char} (hl : 2 ≤ stem.length) (hs : '/' ∉ stem) : IsStem stem :=
  ⟨List.ne_nil_of_length_pos (by omega), hs, fun h => by simp [h] at hl⟩

theorem IsStem.isName {stem extension : List Char} (h : IsStem stem) (he : '/' ∉ extension) :
    IsName (stem ++ '.' :: extension) := by
  have hslash : '/' ∉ stem ++ '.' :: extension := by simp [h.noSlash, he]
  by_cases hl : 2 ≤ stem.length + extension.length
  · exact isName_append hl h.noSlash he
  · -- one character other than a dot, and nothing behind the dot
    have hpos := List.length_pos_iff.2 h.ne_nil
    obtain ⟨c, rfl⟩ := List.length_eq_one_iff.1 (show stem.length = 1 by omega)
    have hext : extension = [] := List.length_eq_zero_iff.1 (by omega)
    have hc : c ≠ '.' := fun hd => h.ne_dot (by rw [hd])
    refine ⟨by simp, hslash, by simp, fun hd => hc ?_⟩
    exact (List.cons.inj hd).1

theorem withExtension_join {stem old : List Char} (hs : IsStem stem) (ho : '/' ∉ old)
    (hdot : '.' ∉ old) {extension : String} (he : '/' ∉ extension.toList) :
    withExtension (join base (String.ofList (stem ++ '.' :: old))) extension =
      join base (String.ofList (stem ++ '.' :: extension.toList)) := by
  have hold : IsName (stem ++ '.' :: old) := hs.isName ho
  have hbare : IsName (stem ++ '.' :: []) := hs.isName (by simp)
  have hext : extension? (join base (String.ofList (stem ++ '.' :: old))) = some old := by
    rw [extension?, fileName?_join hold]
    exact congrArg Prod.snd (splitExtension_append hs.ne_nil hdot)
  have hcut : String.ofList ((join base (String.ofList (stem ++ '.' :: old))).toList.take
      ((join base (String.ofList (stem ++ '.' :: old))).length - old.length)) =
        join base (String.ofList (stem ++ '.' :: [])) := by
    rw [← String.length_toList, ← String.toList_inj, String.toList_ofList, toList_join hold,
      toList_join hbare]
    have hsplit : directoryText base ++ (stem ++ '.' :: old) =
        (directoryText base ++ (stem ++ '.' :: [])) ++ old := by simp
    rw [hsplit, List.take_left' (by simp; omega)]
  rw [withExtension, hext]
  simp only
  rw [hcut, setExtension_join hbare, splitExtension_append hs.ne_nil (by simp), ← String.toList_inj,
    String.toList_ofList, toList_join (hs.isName he), List.append_assoc]

end Join

end BoardMarkup.Path
