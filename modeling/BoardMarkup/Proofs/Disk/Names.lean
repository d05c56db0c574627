import BoardMarkup.Proofs.Disk.Temporary

/-! Disks whose locations all have names, whatever is done on them. -/
namespace BoardMarkup.Disk

def Named (l : Location) : Prop := ∀ name ∈ l, Path.IsName name.toList ∧ validName name = true

variable {d e : Disk} {l m : Location} {name path through : String} {content : ByteArray}

theorem Descends.isName (h : Descends name) (hs : '/' ∉ name.toList) : Path.IsName name.toList := by
  refine ⟨fun he => h.1 ?_, hs, fun he => h.2.1 ?_, fun he => h.2.2 ?_⟩ <;>
    rw [← String.ofList_toList (s := name), he]

theorem Named.follow (h : Named l) (hs : '/' ∉ name.toList) (hf : d.follow l name = some m) :
    Named m := by
  obtain ⟨-, rfl | rfl | ⟨hn, hv, rfl⟩⟩ := follow_eq_some hf
  · exact h
  · exact fun n hm => h n ((List.dropLast_sublist l).subset hm)
  · intro n hm
    rcases List.mem_append.1 hm with hm | hm
    · exact h n hm
    · rw [List.mem_singleton.1 hm]
      exact ⟨hn.isName hs, hv⟩

theorem Named.foldlM {names : List String} (h : Named l) (hs : ∀ n ∈ names, '/' ∉ n.toList)
    (hf : names.foldlM d.follow l = some m) : Named m := by
  induction names generalizing l with
  | nil =>
    cases hf
    exact h
  | cons name names ih =>
    obtain ⟨k, hk, hf⟩ := Option.bind_eq_some_iff.1 hf
    exact ih (h.follow (hs name (by simp)) hk) (fun n hm => hs n (List.mem_cons_of_mem _ hm)) hf

/-- A disk as a system could have it, with all directories down to the working directory. -/
structure Sound (d : Disk) : Prop extends Proper d where
  named : Named d.workingDirectory
  rooted : d.Rooted d.workingDirectory

namespace Sound

theorem named_origin (h : d.Sound) (path : String) : Named (d.origin path) := by
  unfold origin
  split
  · exact fun name hm => by cases hm
  · exact h.named

/-- A path leads to a location whose names are valid, whether something is there or not. -/
theorem named_of_resolve? (h : d.Sound) (hr : d.resolve? path = some l) : Named l := by
  unfold resolve? at hr
  split at hr
  · exact (h.named_origin path).foldlM (fun n hm => Path.noSlash_of_mem_names hm) hr
  · cases hr

theorem of_keeps (h : d.Sound) (hk : d.Keeps e) (hp : e.Proper) : e.Sound := by
  refine ⟨hp, ?_, h.rooted.workingDirectory_mono hk⟩
  rw [hk.workingDirectory]
  exact h.named

theorem proper_set (h : d.Sound) (hl : Named l) (n : Node) : (d.set l n).Proper := by
  constructor
  case distinct =>
    have hrest := (h.unset l).distinct
    refine List.nodup_cons.2 ⟨fun hm => ?_, hrest⟩
    obtain ⟨e, he, hel⟩ := List.mem_map.1 hm
    exact absurd hel (by simpa using (List.mem_filter.1 he).2)
  case names =>
    intro e he
    rcases List.mem_cons.1 he with rfl | he
    · exact hl
    · exact (h.unset l).names e he

theorem set_file (h : d.Sound) (hl : Named l) (hd : d.isDirectory l = false) (content : ByteArray) :
    (d.set l (.file content)).Sound :=
  h.of_keeps (sameShape_set hd content).keeps (h.proper_set hl _)

theorem unset_file (h : d.Sound) (hd : d.isDirectory l = false) : (d.unset l).Sound :=
  h.of_keeps (sameShape_unset hd).keeps (h.unset l)

theorem enter (h : d.Sound) (hl : Named l) (hs : '/' ∉ name.toList) (he : d.enter l name = some (e, m)) :
    e.Sound ∧ Named m := by
  obtain ⟨hf, hk, -⟩ := enter_eq_some he
  have hm := hl.follow hs hf
  refine ⟨h.of_keeps hk ?_, hm⟩
  unfold Disk.enter at he
  obtain ⟨k, -, he⟩ := Option.bind_eq_some_iff.1 he
  split at he
  · cases he
    exact h.toProper
  · cases he
  · cases he
    exact h.proper_set hm _

theorem enterAll {names : List String} (h : d.Sound) (hl : Named l)
    (hs : ∀ n ∈ names, '/' ∉ n.toList) : (d.enterAll l names).1.Sound := by
  induction names generalizing d l with
  | nil => exact h
  | cons name names ih =>
    unfold Disk.enterAll
    split
    · next he =>
      split
      · exact h
      · obtain ⟨hnext, hm⟩ := h.enter hl (hs name (by simp)) he
        exact ih hnext hm fun n hn => hs n (List.mem_cons_of_mem _ hn)
    · exact h

theorem makeDirectory (h : d.Sound) (path : String) : (d.makeDirectory path).1.Sound := by
  unfold Disk.makeDirectory
  split_ifs
  · exact h
  · exact h.enterAll (h.named_origin path) fun n hm => Path.noSlash_of_mem_names hm
  · exact h

theorem write? (h : d.Sound) (hw : d.write? path content = some e) : e.Sound := by
  unfold Disk.write? create? at hw
  obtain ⟨f, hcreate, hfill⟩ := Option.bind_eq_some_iff.1 hw
  obtain ⟨l, hl, hcreate⟩ := Option.bind_eq_some_iff.1 hcreate
  have hf : f.Sound := by
    split at hcreate
    · cases hcreate
    · next hn =>
      cases hcreate
      exact h.set_file (h.named_of_resolve? hl) (by simpa [isDirectory] using hn) _
  unfold fill? at hfill
  obtain ⟨m, hm, hfill⟩ := Option.bind_eq_some_iff.1 hfill
  split at hfill
  · next hn =>
    cases hfill
    exact hf.set_file (hf.named_of_resolve? hm) (by simp [isDirectory, hn]) _
  · cases hfill

theorem rename? (h : d.Sound) (hr : d.rename? through path = some e) : e.Sound := by
  obtain ⟨m, hm, hmd⟩ := of_rename? hr
  unfold Disk.rename? at hr
  obtain ⟨l, hl, hr⟩ := Option.bind_eq_some_iff.1 hr
  rw [hm] at hr
  -- what is moved is no directory, so none is taken from below the working directory
  have hmoved : ∀ c, d.node? l = some (.file c) → ((d.unset l).set m (.file c)).Sound := by
    intro c hc
    have hd : d.isDirectory l = false := by simp [isDirectory, hc]
    refine (h.unset_file hd).set_file (h.named_of_resolve? hm) ?_ _
    rw [(sameShape_unset hd).directories, hmd]
  simp only [Option.bind_eq_bind, Option.bind_some] at hr
  split at hr
  · next hc _ =>
    cases hr
    exact hmoved _ hc
  · next hc _ =>
    cases hr
    exact hmoved _ hc
  · cases hr

theorem remove? (h : d.Sound) (path : String) : ((d.remove? path).getD d).Sound := by
  cases hr : d.remove? path with
  | none => exact h
  | some e =>
    obtain ⟨-, -, -, hs, -⟩ := remove?_eq_some hr
    have hp := h.toProper.remove? path
    rw [hr] at hp
    exact h.of_keeps hs.keeps hp

theorem replace (h : d.Sound) (path through : String) (content : ByteArray) :
    (d.replace path through content).1.Sound := by
  unfold Disk.replace
  split
  · exact h
  · next hw =>
    have hf := h.write? hw
    split
    · next hr => exact hf.rename? hr
    · exact hf.remove? through

end Sound
end BoardMarkup.Disk
