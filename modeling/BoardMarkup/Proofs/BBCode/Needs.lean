import BoardMarkup.Proofs.BBCode.Declaration
import BoardMarkup.Proofs.Text.Split

/-! The filters that a usage needs, read from its text. -/
namespace BoardMarkup.BBCode

open Text

/--
What a declaration asks for: the filter of its kind, which is the id without the final digits, and the
filters in the lists of its options.
-/
inductive Asks (d : List Char × List Char) : List Char → Prop
  | kind {kind digits : List Char} (id : d.1 = kind ++ digits) (digit : ∀ c ∈ digits, c.isDigit)
      (longest : ∀ c, kind.getLast? = some c → c.isDigit = false)
      (filtered : String.ofList kind ∉ Filter.unfiltered) : Asks d ('#' :: kind.map Char.toLower)
  | listed {option list name : List Char} (behind : option ∈ (split ';' d.2).tail)
      (lists : option = "preFilter=".toList ++ list ∨ option = "postFilter=".toList ++ list)
      (named : name ∈ split ',' list) (hash : name.head? = some '#') : Asks d name

theorem mem_filtersIn_iff {option name : List Char} : name ∈ filtersIn option ↔
    ∃ list, (option = "preFilter=".toList ++ list ∨ option = "postFilter=".toList ++ list) ∧
      name ∈ split ',' list ∧ name.head? = some '#' := by
  have hpre : "preFilter=".toList = ['p', 'r', 'e', 'F', 'i', 'l', 't', 'e', 'r', '='] :=
    String.toList_ofList
  have hpost : "postFilter=".toList = ['p', 'o', 's', 't', 'F', 'i', 'l', 't', 'e', 'r', '='] :=
    String.toList_ofList
  rw [hpre, hpost, filtersIn]
  simp only [← after?_eq_some_iff]
  constructor
  · intro h
    split at h
    · next list hlist =>
      rw [List.mem_filter, decide_eq_true_eq] at h
      rw [Option.or_eq_some_iff] at hlist
      exact ⟨list, hlist.imp_right And.right, h⟩
    · cases h
  · rintro ⟨list, hlist, hname, hhash⟩
    have hfound : (after? ['p', 'r', 'e', 'F', 'i', 'l', 't', 'e', 'r', '='] option).or
        (after? ['p', 'o', 's', 't', 'F', 'i', 'l', 't', 'e', 'r', '='] option) = some list := by
      rcases hlist with hlist | hlist
      · rw [hlist, Option.some_or]
      · rw [hlist, after?_eq_some_iff.1 hlist]
        rfl
    rw [hfound]
    exact List.mem_filter.2 ⟨hname, decide_eq_true hhash⟩

/-- The options of a declaration are the parts behind its first semicolon. -/
theorem mem_optionsIn_iff {d : List Char × List Char} (hd : IsDeclaration d) {option : List Char} :
    option ∈ optionsIn d.2 ↔ option ∈ (split ';' d.2).tail ∧ option ≠ [] := by
  have hoptions : optionsIn d.2 = (split ';' d.2).tail.filter (· ≠ []) := by
    rcases hd.mark with h | h | h
    · rw [h]
      rfl
    · obtain ⟨rest, hrest⟩ := List.head?_eq_some_iff.1 h
      rw [hrest, split, if_pos rfl]
      rfl
    · obtain ⟨rest, hrest⟩ := List.head?_eq_some_iff.1 h
      rw [hrest, split, if_neg (by decide)]
      cases hs : split ';' rest with
      | nil => exact absurd hs (split_ne_nil _ _)
      | cons param parts =>
        rw [optionsIn, hs]
        rfl
  rw [hoptions, List.mem_filter, decide_eq_true_eq]

theorem asks_iff {d : List Char × List Char} (hd : IsDeclaration d) {name : List Char} :
    Asks d name ↔ name ∈ needsOf d := by
  rw [mem_needsOf_iff]
  constructor
  · rintro (⟨hid, hdigit, hlongest, hfiltered⟩ | ⟨hbehind, hlists, hnamed, hhash⟩)
    · have hkind := dropEndWhile_eq_iff.2 ⟨_, hid, hdigit, hlongest⟩
      rw [hkind]
      exact .inl ⟨hfiltered, rfl⟩
    · next option list =>
      refine .inr ⟨option, (mem_optionsIn_iff hd).2 ⟨hbehind, ?_⟩,
        mem_filtersIn_iff.2 ⟨list, hlists, hnamed, hhash⟩⟩
      rintro rfl
      rcases hlists with h | h <;> simp at h
  · rintro (⟨hfiltered, rfl⟩ | ⟨option, hoption, hname⟩)
    · obtain ⟨digits, hid, hdigit, hlongest⟩ :=
        dropEndWhile_eq_iff.1 (Eq.refl (dropEndWhile Char.isDigit d.1))
      exact .kind hid hdigit hlongest hfiltered
    · obtain ⟨list, hlists, hnamed, hhash⟩ := mem_filtersIn_iff.1 hname
      exact .listed ((mem_optionsIn_iff hd).1 hoption).1 hlists hnamed hhash

private theorem isDeclaration_of_mem {cs : List Char} {d : List Char × List Char}
    (h : d ∈ findAll declaration cs) :
    IsDeclaration d := by
  obtain ⟨before, rest, n, hd⟩ := exists_of_mem_findAll h
  exact (declaration_eq_some_iff.1 hd).1

/-- Whether a usage declares a token, other than those for patterns, that asks for a filter. -/
def Needs (usage name : String) : Prop :=
  ∃ ds, Declares usage.toList ds ∧ ∃ d ∈ ds, d.1 ≠ parseId ∧ Asks d name.toList

/-- What a usage needs is what its tokens require, also those that are declared more than once. -/
theorem mem_required_iff_needs {usage name : String} {u : Usage} (hu : Usage.parse? usage = .ok u) :
    name ∈ Filter.required u ↔ Needs usage name := by
  rw [mem_required_iff hu, Needs]
  simp only [declares_iff, exists_eq_left', declarationsOf, findAll_declaration_bodyOf, List.mem_filter,
    decide_eq_true_eq, and_assoc]
  refine exists_congr fun d => and_congr_right fun hd => and_congr_right fun _ => ?_
  exact (asks_iff (isDeclaration_of_mem hd)).symm

/-- A usage is read again from the text that is kept of it. -/
theorem parse?_source {usage : String} {u : Usage} (hu : Usage.parse? usage = .ok u) :
    Usage.parse? u.source = .ok u := by
  have hbody : stripWhile isBlank u.source.toList = stripWhile isBlank usage.toList := by
    rw [(parse?_rules hu).2, String.toList_ofList, bodyOf, stripWhile_stripWhile]
  unfold Usage.parse? at hu ⊢
  rwa [hbody]

end BoardMarkup.BBCode
