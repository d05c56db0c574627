import BoardMarkup.Proofs.Disk.Tree
import Mathlib.Tactic.SplitIfs

/-! Where paths lead, and directories that are there once they are made. -/
namespace BoardMarkup.Disk

variable {d e : Disk} {l m : Location} {name path : String}

/-- Whether a name is not one of the signs that stay in a directory or go back. -/
def Descends (name : String) : Prop := name ≠ "" ∧ name ≠ "." ∧ name ≠ ".."

theorem follow_eq_some (h : d.follow l name = some m) : d.isDirectory l = true ∧
    (m = l ∨ m = l.dropLast ∨ (Descends name ∧ validName name = true ∧ m = l ++ [name])) := by
  unfold follow at h
  split_ifs at h with hd hstay hback hvalid
  · exact ⟨by simpa using hd, .inl (Option.some.inj h).symm⟩
  · exact ⟨by simpa using hd, .inr (.inl (Option.some.inj h).symm)⟩
  · simp only [not_or] at hstay
    exact ⟨by simpa using hd, .inr (.inr ⟨⟨hstay.1, hstay.2, hback⟩, hvalid, (Option.some.inj h).symm⟩)⟩

theorem follow_descends (hn : Descends name) : d.follow l name = some m ↔
    d.isDirectory l = true ∧ validName name = true ∧ m = l ++ [name] := by
  simp only [follow, hn.1, hn.2.1, hn.2.2, or_self, if_false]
  cases d.isDirectory l <;> cases validName name <;> simp [eq_comm]

/-- All directories above a location are there. -/
def Rooted (d : Disk) (l : Location) : Prop := ∀ k, k <+: l → k ≠ l → d.isDirectory k = true

theorem rooted_nil (d : Disk) : d.Rooted [] := fun _ hk hne => absurd (List.prefix_nil.1 hk) hne

theorem Rooted.follow (h : d.Rooted l) (hf : d.follow l name = some m) : d.Rooted m := by
  obtain ⟨hd, rfl | rfl | ⟨-, -, rfl⟩⟩ := follow_eq_some hf
  · exact h
  · intro k hk hne
    refine h k (hk.trans (List.dropLast_prefix l)) ?_
    rintro rfl
    exact hne (hk.eq_of_length_le (by simp))
  · intro k hk hne
    rcases List.prefix_concat_iff.1 hk with rfl | hk
    · exact absurd rfl hne
    · by_cases hkl : k = l
      · rw [hkl, hd]
      · exact h k hk hkl

theorem Rooted.foldlM {names : List String} (h : d.Rooted l) (hf : names.foldlM d.follow l = some m) :
    d.Rooted m := by
  induction names generalizing l with
  | nil =>
    cases hf
    exact h
  | cons name names ih =>
    obtain ⟨k, hk, hf⟩ := Option.bind_eq_some_iff.1 hf
    exact ih (h.follow hk) hf

theorem foldlM_concat (names : List String) : (names ++ [name]).foldlM d.follow l = some m ↔
    ∃ k, names.foldlM d.follow l = some k ∧ d.follow k name = some m := by
  rw [List.foldlM_append]
  simp [Option.bind_eq_some_iff]

theorem validPath_of_prefix {long : String} (h : path.toList <+: long.toList)
    (hv : validPath long = true) : validPath path = true := by
  obtain ⟨tail, ht⟩ := h
  have hl : long = path ++ String.ofList tail := by
    rw [← String.toList_inj, String.toList_append, String.toList_ofList, ht]
  rw [hl] at hv
  simp only [validPath, String.utf8ByteSize_append, String.toList_append, Bool.and_eq_true,
    decide_eq_true_eq, Bool.not_eq_true', List.contains_eq_mem, decide_eq_false_iff_not,
    List.mem_append, not_or] at hv ⊢
  exact ⟨by omega, hv.2.1⟩

theorem isDirectory_of_foldlM {names : List String} (hf : names.foldlM d.follow l = some m)
    (hm : d.isDirectory m = true) : d.isDirectory l = true := by
  cases names with
  | nil =>
    cases hf
    exact hm
  | cons name names =>
    obtain ⟨k, hk, -⟩ := Option.bind_eq_some_iff.1 hf
    exact (follow_eq_some hk).1

def start (d : Disk) (base : String) : Location :=
  if (Path.directoryText base).head? = some '/' then [] else d.workingDirectory

theorem origin_join_of_notMem {n : List Char} (hn : '/' ∉ n) (base : String) :
    d.origin (Path.join base (String.ofList n)) = d.start base := by
  have hhead : n.head? ≠ some '/' := fun he => hn (List.mem_of_mem_head? he)
  rw [origin, start, Path.toList_join_of_notMem hn]
  cases Path.directoryText base with
  | nil => rw [List.nil_append, if_neg hhead, if_neg (by simp)]
  | cons c cs => rfl

private theorem origin_join {n : List Char} (hn : Path.IsName n) (base : String) :
    d.origin (Path.join base (String.ofList n)) = d.start base :=
  origin_join_of_notMem hn.noSlash base

/-- A name below a path leads beside all others in the directory of the path. -/
theorem resolve?_join {base : String} {n : List Char} (hn : Path.IsName n) :
    d.resolve? (Path.join base (String.ofList n)) = some l ↔
      validPath (Path.join base (String.ofList n)) = true ∧ validName (String.ofList n) = true ∧
        ∃ k, (Path.directoryNames base).foldlM d.follow (d.start base) = some k ∧
          d.isDirectory k = true ∧ l = k ++ [String.ofList n] := by
  have hdescends : Descends (String.ofList n) := by
    refine ⟨fun he => hn.ne_nil ?_, fun he => hn.ne_dot ?_, fun he => hn.ne_dots ?_⟩ <;>
      simpa using congrArg String.toList he
  have hne : Path.join base (String.ofList n) ≠ "" := fun he => by
    have := congrArg String.toList he
    rw [Path.toList_join hn] at this
    exact hn.ne_nil (List.append_eq_nil_iff.1 this).2
  rw [resolve?, Path.names_join hn, origin_join hn]
  split
  · next hv =>
    rw [foldlM_concat]
    simp only [follow_descends hdescends, hv.2, true_and]
    constructor
    · rintro ⟨k, hk, hd, hname, hl⟩
      exact ⟨hname, k, hk, hd, hl⟩
    · rintro ⟨hname, k, hk, hd, hl⟩
      exact ⟨k, hk, hd, hname, hl⟩
  · next hv =>
    simp only [reduceCtorEq, false_iff]
    exact fun h => hv ⟨hne, h.1⟩

theorem Rooted.origin (h : d.Rooted d.workingDirectory) (path : String) : d.Rooted (d.origin path) := by
  unfold Disk.origin
  split
  · exact rooted_nil d
  · exact h

/-- What a path leads to has the last name of the path, unless it is a directory. -/
theorem last_of_resolve? (hw : d.Rooted d.workingDirectory) (h : d.resolve? path = some l)
    (hl : d.isDirectory l = false) :
    ∃ k name, l = k ++ [name] ∧ Path.fileName? path = some name.toList := by
  unfold resolve? at h
  split at h
  · unfold Path.names at h
    obtain ⟨parts, part, hsplit⟩ := List.eq_nil_or_concat
      (Text.split '/' path.toList) |>.resolve_left (Text.split_ne_nil _ _)
    rw [List.concat_eq_append] at hsplit
    rw [hsplit, List.map_append] at h
    obtain ⟨k, hk, hlast⟩ := (foldlM_concat _).1 h
    have hroot : d.Rooted k := (hw.origin path).foldlM hk
    -- staying or going back ends in a directory, so the last name was one to go down by
    obtain ⟨hd, rfl | rfl | ⟨hn, -, rfl⟩⟩ := follow_eq_some hlast
    · rw [hd] at hl
      cases hl
    · by_cases hnil : k = []
      · subst hnil
        cases hl
      · rw [hroot _ (List.dropLast_prefix k) fun he => hnil (by
          have := congrArg List.length he
          rw [List.length_dropLast] at this
          exact List.length_eq_zero_iff.1 (by omega))] at hl
        cases hl
    · obtain ⟨hslash, before, hpath, hbefore⟩ := Text.split_eq_concat hsplit
      refine ⟨k, _, rfl, ?_⟩
      rw [String.toList_ofList]
      refine Path.fileName?_eq ⟨fun he => hn.1 ?_, hslash, fun he => hn.2.1 ?_, fun he => hn.2.2 ?_⟩
        hpath hbefore <;> rw [he]
  · cases h

/-- Another disk has at least the same directories, and paths start where they did. -/
structure Keeps (d e : Disk) : Prop where
  directories : ∀ l, d.isDirectory l = true → e.isDirectory l = true
  workingDirectory : e.workingDirectory = d.workingDirectory

theorem Keeps.refl (d : Disk) : d.Keeps d := ⟨fun _ h => h, rfl⟩

theorem Keeps.trans {f : Disk} (h : d.Keeps e) (h' : e.Keeps f) : d.Keeps f :=
  ⟨fun l hl => h'.directories l (h.directories l hl), h'.workingDirectory.trans h.workingDirectory⟩

theorem SameShape.keeps (h : SameShape d e) : d.Keeps e :=
  ⟨fun l hl => (h.directories l).trans hl, h.workingDirectory⟩

theorem Rooted.mono (h : d.Rooted l) (hk : d.Keeps e) : e.Rooted l :=
  fun k hp hne => hk.directories k (h k hp hne)

theorem Rooted.workingDirectory_mono (h : d.Rooted d.workingDirectory) (hk : d.Keeps e) :
    e.Rooted e.workingDirectory := by
  rw [hk.workingDirectory]
  exact h.mono hk

theorem enter_eq_some (h : d.enter l name = some (e, m)) : d.follow l name = some m ∧ d.Keeps e ∧
    e.isDirectory m = true := by
  unfold enter at h
  obtain ⟨k, hk, h⟩ := Option.bind_eq_some_iff.1 h
  split at h
  · next hn =>
    cases h
    exact ⟨hk, .refl d, by simp [isDirectory, hn]⟩
  · cases h
  · next hn =>
    cases h
    have hne : m ≠ [] := by
      rintro rfl
      cases hn
    refine ⟨hk, ⟨fun l hl => ?_, rfl⟩, by simp [isDirectory, node?_set hne]⟩
    rw [isDirectory, node?_set hne]
    split
    · rfl
    · exact hl

private theorem enter_of_keeps {f : Disk} (h : d.enter l name = some (e, m)) (hk : e.Keeps f) :
    f.enter l name = some (f, m) := by
  obtain ⟨hf, hde, hm⟩ := enter_eq_some h
  have hl : f.isDirectory l = true := (hde.trans hk).directories l (follow_eq_some hf).1
  have hff : f.follow l name = some m := by
    rw [← hf, follow, follow, hl, (follow_eq_some hf).1]
  have hfm : f.node? m = some .directory := by
    have := hk.directories m hm
    rwa [isDirectory, beq_iff_eq] at this
  simp [enter, hff, hfm]

theorem enterAll_keeps {names : List String} : d.Keeps (d.enterAll l names).1 := by
  induction names generalizing d l with
  | nil => exact .refl d
  | cons name names ih =>
    unfold enterAll
    split
    · next h =>
      split
      · exact .refl d
      · exact (enter_eq_some h).2.1.trans ih
    · exact .refl d

private theorem enterAll_of_keeps {names : List String} {f : Disk} (h : d.enterAll l names = (e, true))
    (hk : e.Keeps f) : f.enterAll l names = (f, true) := by
  induction names generalizing d l with
  | nil => rfl
  | cons name names ih =>
    unfold enterAll at h
    split at h
    · next next m hn =>
      split at h
      · cases h
      · have he : next.Keeps e := by
          rw [← show (next.enterAll m names).1 = e from congrArg Prod.fst h]
          exact enterAll_keeps
        have hm : f.isDirectory m = true := (he.trans hk).directories m (enter_eq_some hn).2.2
        rw [enterAll, enter_of_keeps hn (he.trans hk)]
        simp only [hm, Bool.not_true, Bool.and_false, Bool.false_eq_true, if_false]
        exact ih h
    · cases h

theorem makeDirectory_keeps (d : Disk) (path : String) : d.Keeps (d.makeDirectory path).1 := by
  unfold makeDirectory
  split_ifs
  · exact .refl d
  · exact enterAll_keeps
  · exact .refl d

theorem makeDirectory_of_keeps {f : Disk} (h : d.makeDirectory path = (e, true)) (hk : e.Keeps f) :
    f.makeDirectory path = (f, true) := by
  have hde := makeDirectory_keeps d path
  rw [h] at hde
  have ho : f.origin path = d.origin path := by
    rw [origin, origin, (hde.trans hk).workingDirectory]
  unfold makeDirectory at h ⊢
  split_ifs at h ⊢
  · rfl
  · rw [ho]
    exact enterAll_of_keeps h hk
  · cases h

end BoardMarkup.Disk
