import BoardMarkup.Proofs.Disk.Frame
import BoardMarkup.Proofs.Disk.Removal

/-! Temporary names beside the names of files, and files that are replaced through them. -/
namespace BoardMarkup

namespace Path

variable {base name extension : String}

private theorem splitExtension_dot {old : List Char} (hd : '.' ∉ old) :
    splitExtension ('.' :: old) = ('.' :: old, none) := by
  have hafter : (('.' :: old).reverse.takeWhile (· != '.')).reverse = old := by
    have hall : ∀ c ∈ old.reverse, (c != '.') = true := fun c hc => by
      rw [List.mem_reverse] at hc
      exact bne_iff_ne.2 fun e => hd (e ▸ hc)
    rw [List.reverse_cons, List.takeWhile_append_of_pos hall]
    simp
  rw [splitExtension, hafter]
  simp

private theorem splitExtension_of_notMem {cs : List Char} (hd : '.' ∉ cs) :
    splitExtension cs = (cs, none) := by
  have hafter : (cs.reverse.takeWhile (· != '.')).reverse = cs := by
    have hall : ∀ c ∈ cs.reverse, (c != '.') = true := fun c hc => by
      rw [List.mem_reverse] at hc
      exact bne_iff_ne.2 fun e => hd (e ▸ hc)
    have happend : (cs.reverse ++ []).takeWhile (· != '.') = cs.reverse ++ [] :=
      List.takeWhile_append_of_pos hall
    rw [List.append_nil] at happend
    rw [happend, List.reverse_reverse]
  rw [splitExtension, hafter]
  simp

theorem splitExtension_cases (cs : List Char) : splitExtension cs = (cs, none) ∨
    ∃ stem old, cs = stem ++ '.' :: old ∧ '.' ∉ old ∧ stem ≠ [] := by
  by_cases hm : '.' ∈ cs
  · obtain ⟨stem, old, hcs, hold⟩ := Text.exists_last_separator hm
    by_cases hs : stem = []
    · left
      rw [hcs, hs, List.nil_append]
      exact splitExtension_dot hold
    · right
      exact ⟨stem, old, hcs, hold, hs⟩
  · left
    exact splitExtension_of_notMem hm

theorem fileName?_dots (base : String) : fileName? (join base "..") = none := by
  have htext : (join base "..").toList = directoryText base ++ ['.', '.'] :=
    toList_join_of_notMem (by decide)
  have hreverse : (join base "..").toList.reverse = '.' :: '.' :: (directoryText base).reverse := by
    rw [htext]
    simp
  have hidle : dropIdle (join base "..").toList.reverse = '.' :: '.' :: (directoryText base).reverse := by
    rw [hreverse]
    unfold dropIdle
    split
    · next he => cases he
    · next he => cases he
    · rfl
  have htake : ('.' :: '.' :: (directoryText base).reverse).takeWhile (· != '/') = ['.', '.'] := by
    rcases directoryText_cases base with hd | ⟨before, hd⟩ <;> rw [hd] <;> simp
  have hlast : (splitLast (join base "..")).1 = ['.', '.'] := by
    rw [splitLast, hidle]
    exact htake
  rw [fileName?, hlast]
  rfl

theorem extension?_join (hn : IsName name.toList) (base : String) :
    extension? (join base name) = (splitExtension name.toList).2 := by
  have hfile : fileName? (join base (String.ofList name.toList)) = some name.toList :=
    fileName?_join hn
  rw [String.ofList_toList] at hfile
  rw [extension?, hfile]
  rfl

private theorem withExtension_cases (hn : IsName name.toList) (he : '/' ∉ extension.toList) : ∃ t : String,
    (IsName t.toList ∨ t = "..") ∧ '.' ∈ t.toList ∧
      ∀ base, withExtension (join base name) extension = join base t := by
  rcases splitExtension_cases name.toList with hs | ⟨stem, old, hname, hdot, hne⟩
  · -- nothing is cut off, and the extension is put behind the whole name
    have hstem : IsStem name.toList := ⟨hn.ne_nil, hn.noSlash, hn.ne_dot⟩
    have hnext := hstem.isName he
    refine ⟨String.ofList (name.toList ++ '.' :: extension.toList), .inl ?_, by simp, fun base => ?_⟩
    · rwa [String.toList_ofList]
    · have hset : setExtension (join base (String.ofList name.toList)) extension.toList = _ :=
        setExtension_join hn extension.toList
      rw [String.ofList_toList] at hset
      rw [withExtension, extension?_join hn, hs]
      simp only
      rw [hset, hs, ← String.toList_inj, String.toList_ofList, toList_join hnext, List.append_assoc]
  · have hslash := hn.noSlash
    simp only [hname, List.mem_append, List.mem_cons, not_or] at hslash
    have hnameOf : name = String.ofList (stem ++ '.' :: old) := by
      rw [← hname, String.ofList_toList]
    by_cases hd : stem = ['.']
    · -- without what stands behind its second dot, the name leads to the parent directory
      refine ⟨"..", .inr rfl, by decide, fun base => ?_⟩
      have hext : extension? (join base name) = some old := by
        rw [extension?_join hn, hname]
        exact congrArg Prod.snd (splitExtension_append hne hdot)
      have htext : (join base name).toList = directoryText base ++ (stem ++ '.' :: old) := by
        rw [hnameOf]
        exact toList_join (hname ▸ hn)
      have hcut : String.ofList ((join base name).toList.take ((join base name).length - old.length)) =
          join base ".." := by
        have hdots : (join base "..").toList = directoryText base ++ ['.', '.'] :=
          toList_join_of_notMem (by decide)
        have hsplit : directoryText base ++ (stem ++ '.' :: old) =
            (directoryText base ++ ['.', '.']) ++ old := by simp [hd]
        rw [← String.length_toList, ← String.toList_inj, String.toList_ofList, htext, hdots, hsplit,
          List.take_left' (by simp; omega)]
      rw [withExtension, hext]
      simp only
      rw [hcut, setExtension, fileName?_dots]
    · have hstem : IsStem stem := ⟨hne, hslash.1, hd⟩
      refine ⟨String.ofList (stem ++ '.' :: extension.toList), .inl ?_, by simp, fun base => ?_⟩
      · rw [String.toList_ofList]
        exact hstem.isName he
      · rw [hnameOf]
        exact withExtension_join hstem hslash.2.2 hdot he

/-- Another extension makes of a name one with a dot, below each directory the same. -/
theorem withExtension_spec (hn : IsName name.toList) (he : '/' ∉ extension.toList) :
    (IsName (withExtension name extension).toList ∨ withExtension name extension = "..") ∧
      '.' ∈ (withExtension name extension).toList ∧
      ∀ base, withExtension (join base name) extension = join base (withExtension name extension) := by
  obtain ⟨t, ht, hdot, hall⟩ := withExtension_cases hn he
  have hslash : '/' ∉ t.toList := by
    rcases ht with ht | rfl
    · exact ht.noSlash
    · decide
  have hself : ∀ x : String, '/' ∉ x.toList → join "" x = x := by
    intro x hx
    have hhead : x.toList.head? ≠ some '/' := fun h => hx (List.mem_of_mem_head? h)
    rw [join, if_neg hhead, if_pos (.inl rfl), String.empty_append]
  have hname : withExtension name extension = t := by
    have hempty := hall ""
    rwa [hself name hn.noSlash, hself t hslash] at hempty
  rw [hname]
  exact ⟨ht, hdot, hall⟩

/-- Another extension changes a name, and not the directory before it. -/
theorem withExtension_name (hn : IsName name.toList) (he : '/' ∉ extension.toList) :
    (IsName (withExtension name extension).toList ∨ withExtension name extension = "..") ∧
      ∀ base, withExtension (join base name) extension = join base (withExtension name extension) :=
  ⟨(withExtension_spec hn he).1, (withExtension_spec hn he).2.2⟩

end Path

namespace Disk

variable {d e : Disk} {l m : Location} {base name other path through : String} {content : ByteArray}

def entry (l : Location) (name : String) : Location :=
  if name = ".." then l.dropLast else l ++ [name]

theorem entry_of_isName (hn : Path.IsName name.toList) : entry l name = l ++ [name] :=
  if_neg fun h => hn.ne_dots (by rw [h]; rfl)

theorem entry_inj : entry l name = entry l other ↔ name = other := by
  have hback : ∀ n : String, l.dropLast ≠ l ++ [n] := fun n h => by
    have hl := congrArg List.length h
    rw [List.length_dropLast, List.length_append, List.length_singleton] at hl
    omega
  unfold entry
  constructor
  · intro h
    split at h
    · next hn =>
      split at h
      · next ho => rw [hn, ho]
      · exact absurd h (hback other)
    · split at h
      · exact absurd h.symm (hback name)
      · simpa using h
  · rintro rfl
    rfl

/-- Names below a directory lead to entries of their own. -/
theorem Opens.entry_of_resolve? (h : d.Opens base l) (hn : Path.IsName name.toList ∨ name = "..")
    (hr : d.resolve? (Path.join base name) = some m) : m = entry l name := by
  rcases hn with hn | rfl
  · rw [← String.ofList_toList (s := name)] at hr
    obtain ⟨-, -, rfl⟩ := (h.resolve?_join hn).1 hr
    rw [String.ofList_toList, entry_of_isName hn]
  · have hslash : '/' ∉ ['.', '.'] := by decide
    have hnames : Path.names (Path.join base "..") = Path.directoryNames base ++ [".."] :=
      Path.names_join_of_notMem hslash
    have horigin : d.origin (Path.join base "..") = d.start base := origin_join_of_notMem hslash base
    unfold resolve? at hr
    split at hr
    · rw [hnames, horigin] at hr
      obtain ⟨k, hk, hlast⟩ := (foldlM_concat _).1 hr
      rw [h.leads] at hk
      cases hk
      have hback : d.follow l ".." = some l.dropLast := by
        unfold follow
        rw [h.isDirectory, if_neg (by decide), if_neg (by decide), if_pos rfl]
      rw [hback] at hlast
      exact (Option.some.inj hlast).symm
    · cases hr

/-- A path that was written to leads to no directory, and what it leads to is all that is new. -/
theorem of_write? (h : d.write? path content = some e) :
    ∃ l, d.resolve? path = some l ∧ d.isDirectory l = false ∧ SameShape d e ∧
      ∀ k, e.node? k = if k = l then some (.file content) else d.node? k := by
  have hpath : ∃ l, d.resolve? path = some l ∧ d.isDirectory l = false := by
    unfold write? create? at h
    obtain ⟨f, hcreate, -⟩ := Option.bind_eq_some_iff.1 h
    obtain ⟨l, hl, hcreate⟩ := Option.bind_eq_some_iff.1 hcreate
    refine ⟨l, hl, ?_⟩
    split at hcreate
    · cases hcreate
    · next hn => simpa [isDirectory] using hn
  obtain ⟨l, hl, hld⟩ := hpath
  obtain ⟨f, hf, hs, hn⟩ := write?_eq_some hl hld content
  rw [h] at hf
  cases hf
  exact ⟨l, hl, hld, hs, hn⟩

theorem read?_write? (h : d.write? path content = some e) : e.read? path = some content := by
  obtain ⟨l, hl, -, hs, hn⟩ := of_write? h
  rw [read?_eq, hs.resolve?, hl, Option.bind_some, file?_eq_some_iff, hn, if_pos rfl]

theorem of_rename? {source target : String} (h : d.rename? source target = some e) :
    ∃ m, d.resolve? target = some m ∧ d.isDirectory m = false := by
  unfold rename? at h
  obtain ⟨l, -, h⟩ := Option.bind_eq_some_iff.1 h
  obtain ⟨m, hm, h⟩ := Option.bind_eq_some_iff.1 h
  refine ⟨m, hm, ?_⟩
  unfold isDirectory
  split at h
  · next hn => rw [hn]; rfl
  · next hn => rw [hn]; rfl
  · cases h

/-- A file that was replaced through another one is all that is new. -/
theorem of_replace (h : d.replace path through content = (e, true)) : ∃ l m,
    d.resolve? through = some l ∧ d.resolve? path = some m ∧ d.isDirectory l = false ∧
      d.isDirectory m = false ∧ SameShape d e ∧
      ∀ k, e.node? k = if k = m then some (.file content) else if k = l then none else d.node? k := by
  have hwrite : ∃ f, d.write? through content = some f ∧ f.rename? through path = some e := by
    unfold replace at h
    split at h
    · cases h
    · next f hf =>
      split at h
      · next g hg =>
        cases h
        exact ⟨f, hf, hg⟩
      · cases h
  obtain ⟨f, hf, hrename⟩ := hwrite
  obtain ⟨l, hl, hld, hs, -⟩ := of_write? hf
  obtain ⟨m, hm, hmd⟩ := of_rename? hrename
  rw [hs.resolve?] at hm
  rw [hs.directories] at hmd
  obtain ⟨e', he', hse, hn⟩ := replace_eq hm hl hmd hld content
  rw [h] at he'
  cases he'
  exact ⟨l, m, hl, hm, hld, hmd, hse, hn⟩

/-- Whether it succeeds or not, only what the two paths lead to is changed, and no directory is. -/
theorem frame_replace (d : Disk) (path through : String) (content : ByteArray) :
    SameShape d (d.replace path through content).1 ∧
      ∀ k, d.resolve? path ≠ some k → d.resolve? through ≠ some k →
        (d.replace path through content).1.node? k = d.node? k := by
  unfold replace
  cases hw : d.write? through content with
  | none => exact ⟨.refl d, fun _ _ _ => rfl⟩
  | some f =>
    obtain ⟨l, hl, hld, hs, hn⟩ := of_write? hw
    simp only
    have hfl : f.isDirectory l = false := (hs.directories l).trans hld
    have hlf : f.resolve? through = some l := (hs.resolve? _).trans hl
    have hkept : ∀ k, d.resolve? through ≠ some k → k ≠ l ∧ f.node? k = d.node? k := by
      intro k hk
      have hkl : k ≠ l := fun he => hk (by rw [hl, he])
      exact ⟨hkl, by rw [hn, if_neg hkl]⟩
    cases hr : f.rename? through path with
    | some e =>
      obtain ⟨m, hm, hmd⟩ := of_rename? hr
      obtain ⟨e', he', hs', hne⟩ := rename?_eq_some hlf hm (by rw [hn, if_pos rfl]) hmd
      rw [hr] at he'
      cases he'
      refine ⟨hs.trans hs', fun k hp ht => ?_⟩
      obtain ⟨hkl, hk⟩ := hkept k ht
      have hkm : k ≠ m := fun he => hp (by rw [← hs.resolve?, hm, he])
      rw [hne, if_neg hkm, if_neg hkl, hk]
    | none =>
      obtain ⟨hs', hne⟩ := getD_remove? hlf hfl
      refine ⟨hs.trans hs', fun k _ ht => ?_⟩
      obtain ⟨hkl, hk⟩ := hkept k ht
      rw [hne, if_neg hkl, hk]

section Content

/-- A file that is written has the new content, and all others have what they had. -/
theorem file?_write? (hp : d.resolve? path = some l) (hl : d.isDirectory l = false)
    (content : ByteArray) : ∃ e, d.write? path content = some e ∧ SameShape d e ∧
      ∀ k, e.file? k = if k = l then some content else d.file? k := by
  obtain ⟨e, hw, hs, hn⟩ := write?_eq_some hp hl content
  refine ⟨e, hw, hs, fun k => ?_⟩
  unfold file?
  rw [hn]
  split_ifs <;> rfl

/-- A file that is there is moved with its content, and nothing is moved otherwise. -/
theorem rename?_cases (hs : d.resolve? through = some l) (ht : d.resolve? path = some m)
    (hm : d.isDirectory m = false) :
    (d.file? l = none ∧ d.rename? through path = none) ∨
    ∃ content e, d.file? l = some content ∧ d.rename? through path = some e ∧ SameShape d e ∧
      ∀ k, e.file? k = if k = m then some content else if k = l then none else d.file? k := by
  cases hf : d.file? l with
  | none =>
    refine .inl ⟨rfl, ?_⟩
    unfold file? at hf
    unfold rename?
    rw [hs, ht]
    simp only [Option.bind_eq_bind, Option.bind_some]
    split at hf
    · cases hf
    · next hnot =>
      split
      · next hn _ => exact absurd hn (hnot _)
      · next hn _ => exact absurd hn (hnot _)
      · rfl
  | some content =>
    obtain ⟨e, hr, hse, hn⟩ := rename?_eq_some hs ht (file?_eq_some_iff.1 hf) hm
    refine .inr ⟨content, e, rfl, hr, hse, fun k => ?_⟩
    unfold file?
    rw [hn]
    split_ifs <;> rfl

theorem file?_getD_remove? (hp : d.resolve? path = some l) (hl : d.isDirectory l = false) :
    SameShape d ((d.remove? path).getD d) ∧
      ∀ k, ((d.remove? path).getD d).file? k = if k = l then none else d.file? k := by
  obtain ⟨hs, hn⟩ := getD_remove? hp hl
  refine ⟨hs, fun k => ?_⟩
  unfold file?
  rw [hn]
  split_ifs <;> rfl

end Content

end Disk
end BoardMarkup
