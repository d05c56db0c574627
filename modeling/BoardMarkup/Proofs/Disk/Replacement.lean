import BoardMarkup.Proofs.Disk.Names

/-! Files that are replaced through temporary ones, wherever their paths lead. -/
namespace BoardMarkup.Disk

/-- A file was replaced through another one. Nothing else changed, but for directories that were made. -/
structure Replaces (d e : Disk) (path through : String) (content : ByteArray) : Prop where
  keeps : d.Keeps e
  sound : d.Sound → e.Sound
  places : ∃ m l, e.resolve? path = some m ∧ e.resolve? through = some l ∧
    ∀ k, e.file? k = if k = m then some content else if k = l then none else d.file? k

variable {d e : Disk} {path through other directory : String} {content text : ByteArray}

theorem replaces_of_replace
    (h : (d.makeDirectory directory).1.replace path through content = (e, true)) :
    d.Replaces e path through content := by
  obtain ⟨l, m, hl, hm, -, -, hs, hn⟩ := of_replace h
  have hsound : d.Sound → e.Sound := fun hd => by
    have hafter := (hd.makeDirectory directory).replace path through content
    rwa [h] at hafter
  -- the files are those of the disk before, since only directories are made first
  refine ⟨(makeDirectory_keeps d directory).trans hs.keeps, hsound, m, l, ?_, ?_, fun k => ?_⟩
  · rw [hs.resolve?, hm]
  · rw [hs.resolve?, hl]
  · rw [← file?_makeDirectory d directory]
    unfold file?
    rw [hn]
    split_ifs <;> rfl

theorem Keeps.isSome_resolve? (h : d.Keeps e) (hp : (d.resolve? path).isSome) :
    (e.resolve? path).isSome := by
  obtain ⟨l, hl⟩ := Option.isSome_iff_exists.1 hp
  rw [h.resolve? hl]
  rfl

theorem Keeps.resolve?_eq_iff (h : d.Keeps e) (hp : (d.resolve? path).isSome)
    (ho : (d.resolve? other).isSome) :
    e.resolve? other = e.resolve? path ↔ d.resolve? other = d.resolve? path := by
  obtain ⟨l, hl⟩ := Option.isSome_iff_exists.1 hp
  obtain ⟨m, hm⟩ := Option.isSome_iff_exists.1 ho
  rw [h.resolve? hl, h.resolve? hm, hl, hm]

theorem isSome_resolve?_of_read? (h : d.read? path = some content) : (d.resolve? path).isSome := by
  rw [read?_eq] at h
  obtain ⟨l, hl, -⟩ := Option.bind_eq_some_iff.1 h
  rw [hl]
  rfl

namespace Replaces

theorem isSome_resolve? (h : d.Replaces e path through content) :
    (e.resolve? path).isSome ∧ (e.resolve? through).isSome := by
  obtain ⟨m, l, hm, hl, -⟩ := h.places
  rw [hm, hl]
  exact ⟨rfl, rfl⟩

theorem read?_path (h : d.Replaces e path through content) : e.read? path = some content := by
  obtain ⟨m, l, hm, -, hfile⟩ := h.places
  rw [read?_eq, hm, Option.bind_some, hfile, if_pos rfl]

/-- Another file is read as it was, unless its path leads where one of the two does. -/
theorem read?_other (h : d.Replaces e path through content) (hr : d.read? other = some text) :
    e.read? other =
      if e.resolve? other = e.resolve? path then some content
      else if e.resolve? other = e.resolve? through then none else some text := by
  obtain ⟨m, l, hm, hl, hfile⟩ := h.places
  rw [read?_eq] at hr
  obtain ⟨k, hk, htext⟩ := Option.bind_eq_some_iff.1 hr
  rw [read?_eq, h.keeps.resolve? hk, hm, hl, Option.bind_some, hfile, htext]
  simp only [Option.some_inj]

theorem resolve?_or_isSome_file? {k : Location} (h : d.Replaces e path through content)
    (hk : (e.file? k).isSome) : e.resolve? path = some k ∨ (d.file? k).isSome := by
  obtain ⟨m, l, hm, -, hfile⟩ := h.places
  rw [hfile] at hk
  by_cases hkm : k = m
  · rw [hkm]
    exact .inl hm
  · rw [if_neg hkm] at hk
    by_cases hkl : k = l
    · rw [if_pos hkl] at hk
      cases hk
    · rw [if_neg hkl] at hk
      exact .inr hk

/-- A file is read as it was, if its path leads elsewhere, also when more directories are made later. -/
theorem read?_of_ne {f : Disk} (h : d.Replaces e path through content) (hk : e.Keeps f)
    (hr : d.read? other = some text) (hpath : f.resolve? other ≠ f.resolve? path)
    (hthrough : f.resolve? other ≠ f.resolve? through) : e.read? other = some text := by
  have hother := h.keeps.isSome_resolve? (isSome_resolve?_of_read? hr)
  have hne := mt (hk.resolve?_eq_iff h.isSome_resolve?.1 hother).2 hpath
  have hne' := mt (hk.resolve?_eq_iff h.isSome_resolve?.2 hother).2 hthrough
  rw [h.read?_other hr, if_neg hne, if_neg hne']

end Replaces
end BoardMarkup.Disk
