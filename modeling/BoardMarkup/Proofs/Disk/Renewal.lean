import BoardMarkup.Proofs.Disk.Frame
import BoardMarkup.Proofs.Disk.Removal

/-! Directories that are removed with all they hold, and directories that are made where they are. -/
namespace BoardMarkup.Disk

variable {d e : Disk} {l m k : Location} {name path base : String}

/-- Where a name leads from a directory does not depend on what the disk holds. -/
theorem follow_unique (hd : d.follow l name = some m) (he : e.follow l name = some k) : m = k := by
  have hdirectory := (follow_eq_some hd).1
  have hdirectory' := (follow_eq_some he).1
  have hsame : e.follow l name = d.follow l name := by
    rw [follow, follow, hdirectory, hdirectory']
  rw [hsame, hd] at he
  exact Option.some.inj he

private theorem foldlM_unique {names : List String} (hd : names.foldlM d.follow l = some m)
    (he : names.foldlM e.follow l = some k) : m = k := by
  induction names generalizing l with
  | nil =>
    cases hd
    cases he
    rfl
  | cons name names ih =>
    obtain ⟨i, hi, hd⟩ := Option.bind_eq_some_iff.1 hd
    obtain ⟨j, hj, he⟩ := Option.bind_eq_some_iff.1 he
    rw [follow_unique hi hj] at hd
    exact ih hd he

/-- A name below a directory leads to one location only, also on a disk where the directory was renewed. -/
theorem Opens.location (h : d.Opens base l) (hw : e.workingDirectory = d.workingDirectory)
    (hn : Path.IsName name.toList) (hr : e.resolve? (Path.join base name) = some m) : m = l ++ [name] := by
  rw [← String.ofList_toList (s := name)] at hr ⊢
  obtain ⟨-, -, k, hk, -, rfl⟩ := (Disk.resolve?_join hn).1 hr
  have hstart : e.start base = d.start base := by rw [start, start, hw]
  rw [hstart] at hk
  rw [foldlM_unique hk h.leads]

section Removal

theorem workingDirectory_removeTree (d : Disk) (path : String) :
    (d.removeTree path).workingDirectory = d.workingDirectory := by
  unfold removeTree
  split
  · split
    · split <;> rfl
    · rfl
  · rfl

private theorem not_mem_removeTree (hr : d.resolve? path = some l) (hd : d.isDirectory l = true)
    (hp : l <+: m) (hne : m ≠ l) (n : Node) : (m, n) ∉ (d.removeTree path).nodes := by
  have hgone : (m, n) ∉ d.nodes.filter fun e => !(l.isPrefixOf e.1 && e.1 ≠ l) := by
    intro hm
    have hkept := (List.mem_filter.1 hm).2
    simp [List.isPrefixOf_iff_prefix.2 hp, hne] at hkept
  unfold removeTree
  simp only [hr, hd, if_true]
  split
  · exact hgone
  · exact fun hm => hgone (List.mem_filter.1 hm).1

theorem file?_removeTree (hr : d.resolve? path = some l) (hd : d.isDirectory l = true)
    (hp : l <+: m) (hne : m ≠ l) : (d.removeTree path).file? m = none := by
  have hnil : m ≠ [] := by
    rintro rfl
    exact hne (List.prefix_nil.1 hp).symm
  have hnone : (d.removeTree path).node? m = none := by
    rw [← Option.not_isSome_iff_eq_none, isSome_node?_iff hnil]
    rintro ⟨n, hm⟩
    exact not_mem_removeTree hr hd hp hne n hm
  rw [file?, hnone]

end Removal

section Making

private theorem enterAll_of_foldlM {names : List String} (hf : names.foldlM d.follow l = some m)
    (hm : d.isDirectory m = true) : d.enterAll l names = (d, true) := by
  induction names generalizing l with
  | nil => rfl
  | cons name names ih =>
    obtain ⟨k, hk, hf⟩ := Option.bind_eq_some_iff.1 hf
    have hdirectory := isDirectory_of_foldlM hf hm
    have hnode : d.node? k = some .directory := by
      rwa [isDirectory, beq_iff_eq] at hdirectory
    have henter : d.enter l name = some (d, k) := by
      simp [enter, hk, hnode]
    rw [enterAll, henter]
    simp only [hdirectory, Bool.not_true, Bool.and_false, Bool.false_eq_true, if_false]
    exact ih hf

theorem Opens.makeDirectory (h : d.Opens base l) (hv : validPath base = true) :
    d.makeDirectory base = (d, true) := by
  by_cases hne : base = ""
  · rw [hne]
    rfl
  · rw [Disk.makeDirectory, if_neg hne, if_pos hv]
    exact enterAll_of_foldlM (h.foldlM_names hne) h.isDirectory

end Making

end BoardMarkup.Disk
