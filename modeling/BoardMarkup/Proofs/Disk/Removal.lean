import BoardMarkup.Proofs.Disk.Tree

/-! Disks as systems have them, and what is left when files are removed. -/
namespace BoardMarkup.Disk

/-- Whether a disk is one that a system could have: one node at a location, and names for all. -/
structure Proper (d : Disk) : Prop where
  distinct : (d.nodes.map (·.1)).Nodup
  names : ∀ e ∈ d.nodes, ∀ name ∈ e.1, Path.IsName name.toList ∧ validName name = true

variable {d e : Disk} {l m : Location} {name path : String}

theorem Proper.unset (h : d.Proper) (l : Location) : (d.unset l).Proper :=
  ⟨h.distinct.sublist (List.filter_sublist.map _), fun e he => h.names e (List.mem_filter.1 he).1⟩

theorem Proper.remove? (h : d.Proper) (path : String) : ((d.remove? path).getD d).Proper := by
  cases hr : d.remove? path with
  | none => exact h
  | some e =>
    unfold Disk.remove? at hr
    obtain ⟨l, -, hr⟩ := Option.bind_eq_some_iff.1 hr
    split at hr
    · cases hr
      exact h.unset l
    · cases hr

theorem isSome_node?_iff (h : l ≠ []) : (d.node? l).isSome ↔ ∃ n, (l, n) ∈ d.nodes := by
  rw [node?, if_neg h, Option.isSome_map, List.find?_isSome]
  constructor
  · rintro ⟨⟨k, n⟩, hm, hk⟩
    exact ⟨n, by rwa [← show k = l by simpa using hk]⟩
  · rintro ⟨n, hm⟩
    exact ⟨_, hm, by simp⟩

theorem Proper.isName (h : d.Proper) (hn : (d.node? (l ++ [name])).isSome) :
    Path.IsName name.toList ∧ validName name = true := by
  obtain ⟨n, hm⟩ := (isSome_node?_iff (by simp)).1 hn
  exact h.names _ hm name (by simp)

/-- Removing what a path leads to, if that is a file or nothing, changes nothing else. -/
theorem getD_remove? (hr : d.resolve? path = some l) (hd : d.isDirectory l = false) :
    d.SameShape ((d.remove? path).getD d) ∧
      ∀ k, ((d.remove? path).getD d).node? k = if k = l then none else d.node? k := by
  cases hn : d.node? l with
  | none =>
    have hremove : d.remove? path = none := by simp [remove?, hr, hn]
    rw [hremove]
    refine ⟨.refl d, fun k => ?_⟩
    split
    · next hk => rw [hk, Option.getD_none, hn]
    · rfl
  | some n =>
    cases n with
    | directory => simp [isDirectory, hn] at hd
    | file content =>
      have hremove : d.remove? path = some (d.unset l) := by simp [remove?, hr, hn]
      rw [hremove]
      exact ⟨sameShape_unset hd, node?_unset (ne_nil_of_not_isDirectory hd)⟩

theorem foldl_remove?_eq {paths : List String}
    (h : ∀ p ∈ paths, ∀ k, d.resolve? p = some k → d.isDirectory k = false) :
    d.SameShape (paths.foldl (fun d path => (d.remove? path).getD d) d) ∧
      ∀ k, (paths.foldl (fun d path => (d.remove? path).getD d) d).node? k =
        if k ∈ paths.filterMap d.resolve? then none else d.node? k := by
  induction paths generalizing d with
  | nil => exact ⟨.refl d, by simp⟩
  | cons path paths ih =>
    have hrest : ∀ p ∈ paths, ∀ k, d.resolve? p = some k → d.isDirectory k = false :=
      fun p hm => h p (List.mem_cons_of_mem _ hm)
    rw [List.foldl_cons, List.filterMap_cons]
    cases hr : d.resolve? path with
    | none =>
      have hremove : d.remove? path = none := by simp [remove?, hr]
      rw [hremove]
      exact ih hrest
    | some l =>
      obtain ⟨hs, hn⟩ := getD_remove? hr (h path (by simp) l hr)
      have hresolve : ((d.remove? path).getD d).resolve? = d.resolve? := funext hs.resolve?
      obtain ⟨hs', hn'⟩ := ih (d := (d.remove? path).getD d) fun p hm k hk => by
        rw [hs.directories]
        exact hrest p hm k (hs.resolve? p ▸ hk)
      refine ⟨hs.trans hs', fun k => ?_⟩
      rw [hn', hn, hresolve]
      by_cases hk : k = l <;> simp [hk]

theorem Proper.foldl_remove? (h : d.Proper) (paths : List String) :
    (paths.foldl (fun d path => (d.remove? path).getD d) d).Proper := by
  induction paths generalizing d with
  | nil => exact h
  | cons path paths ih => exact ih (h.remove? path)

end BoardMarkup.Disk
