import BoardMarkup.Disk.Basic
import BoardMarkup.Proofs.Disk.Path

/-! What operations on files change, and what leads where before and after. -/
namespace BoardMarkup.Disk

variable {d e : Disk} {l m : Location}

theorem find?_filter_ne (h : m ≠ l) (nodes : List (Location × Node)) :
    (nodes.filter (·.1 ≠ l)).find? (·.1 == m) = nodes.find? (·.1 == m) := by
  rw [List.find?_filter]
  congr 1
  funext e
  by_cases he : e.1 = m <;> simp [he, h]

theorem node?_set (hl : l ≠ []) (n : Node) (m : Location) :
    (d.set l n).node? m = if m = l then some n else d.node? m := by
  by_cases hm : m = []
  · subst hm
    simp [node?, Ne.symm hl]
  · by_cases hml : m = l
    · simp [node?, set, hml, hl]
    · have hlm : (l == m) = false := beq_eq_false_iff_ne.2 (Ne.symm hml)
      simp only [node?, set, hm, hml, if_false, List.find?_cons, hlm, find?_filter_ne hml]

theorem node?_unset (hl : l ≠ []) (m : Location) :
    (d.unset l).node? m = if m = l then none else d.node? m := by
  by_cases hm : m = []
  · subst hm
    simp [node?, Ne.symm hl]
  · by_cases hml : m = l
    · simp [node?, unset, hml, hl, List.find?_filter]
    · simp only [node?, unset, hm, hml, if_false, find?_filter_ne hml]

theorem ne_nil_of_not_isDirectory (h : d.isDirectory l = false) : l ≠ [] := by
  rintro rfl
  cases h

/-- Another disk has the same directories. Then every path leads to the same place on both. -/
structure SameShape (d e : Disk) : Prop where
  directories : ∀ l, e.isDirectory l = d.isDirectory l
  workingDirectory : e.workingDirectory = d.workingDirectory

namespace SameShape

theorem refl (d : Disk) : SameShape d d := ⟨fun _ => rfl, rfl⟩

theorem trans {f : Disk} (h : SameShape d e) (h' : SameShape e f) : SameShape d f :=
  ⟨fun l => (h'.directories l).trans (h.directories l),
    h'.workingDirectory.trans h.workingDirectory⟩

theorem follow (h : SameShape d e) (l : Location) (name : String) :
    e.follow l name = d.follow l name := by
  simp only [Disk.follow, h.directories]

theorem resolve? (h : SameShape d e) (path : String) : e.resolve? path = d.resolve? path := by
  have hf : e.follow = d.follow := funext fun l => funext fun name => h.follow l name
  simp only [Disk.resolve?, origin, hf, h.workingDirectory]

end SameShape

theorem sameShape_set (h : d.isDirectory l = false) (content : ByteArray) :
    SameShape d (d.set l (.file content)) := by
  refine ⟨fun m => ?_, rfl⟩
  rw [isDirectory, node?_set (ne_nil_of_not_isDirectory h)]
  split
  · next hm => rw [hm, h]; rfl
  · rfl

theorem sameShape_unset (h : d.isDirectory l = false) : SameShape d (d.unset l) := by
  refine ⟨fun m => ?_, rfl⟩
  rw [isDirectory, node?_unset (ne_nil_of_not_isDirectory h)]
  split
  · next hm => rw [hm, h]; rfl
  · rfl

/-- A file can be written wherever a path leads to no directory, and nothing else changes. -/
theorem write?_eq_some {path : String} (hp : d.resolve? path = some l) (h : d.isDirectory l = false)
    (content : ByteArray) : ∃ e, d.write? path content = some e ∧ SameShape d e ∧
      ∀ k, e.node? k = if k = l then some (.file content) else d.node? k := by
  have hl := ne_nil_of_not_isDirectory h
  have hc : d.create? path = some (d.set l (.file .empty)) := by
    rw [create?, hp]
    simp only [Option.bind_eq_bind, Option.bind_some]
    split
    · next hn => simp [isDirectory, hn] at h
    · rfl
  have hs := sameShape_set h .empty
  have hs' := sameShape_set ((hs.directories l).trans h) content
  refine ⟨_, ?_, hs.trans hs', fun k => ?_⟩
  · rw [write?, hc]
    simp only [Option.bind_eq_bind, Option.bind_some, fill?, hs.resolve?, hp, node?_set hl, if_true]
    rfl
  · rw [node?_set hl, node?_set hl]
    split <;> simp [*]

/-- A file moves to where a path leads to no directory, and nothing else changes. -/
theorem rename?_eq_some {source target : String} {content : ByteArray}
    (hs : d.resolve? source = some l) (ht : d.resolve? target = some m)
    (hf : d.node? l = some (.file content)) (h : d.isDirectory m = false) :
    ∃ e, d.rename? source target = some e ∧ SameShape d e ∧
      ∀ k, e.node? k = if k = m then some (.file content) else if k = l then none else d.node? k := by
  have hl : d.isDirectory l = false := by
    rw [isDirectory, hf]
    rfl
  have hu := sameShape_unset hl
  have hset := sameShape_set ((hu.directories m).trans h) content
  refine ⟨(d.unset l).set m (.file content), ?_, hu.trans hset, fun k => ?_⟩
  · rw [rename?, hs, ht]
    simp only [Option.bind_eq_bind, Option.bind_some, hf]
    cases hn : d.node? m with
    | none => rfl
    | some n =>
      cases n with
      | file other => rfl
      | directory => simp [isDirectory, hn] at h
  · rw [node?_set (ne_nil_of_not_isDirectory h), node?_unset (ne_nil_of_not_isDirectory hl)]

/-- A file that is written through another one is all that is new. -/
theorem replace_eq {path through : String} (hp : d.resolve? path = some m)
    (ht : d.resolve? through = some l) (hm : d.isDirectory m = false) (hl : d.isDirectory l = false)
    (content : ByteArray) :
    ∃ e, d.replace path through content = (e, true) ∧ SameShape d e ∧
      ∀ k, e.node? k = if k = m then some (.file content) else if k = l then none else d.node? k := by
  obtain ⟨f, hw, hs, hn⟩ := write?_eq_some ht hl content
  obtain ⟨e, hr, hs', hn'⟩ := rename?_eq_some ((hs.resolve? _).trans ht) ((hs.resolve? _).trans hp)
    (by rw [hn, if_pos rfl]) ((hs.directories m).trans hm)
  refine ⟨e, ?_, hs.trans hs', fun k => ?_⟩
  · simp only [replace, hw, hr]
  · rw [hn', hn]
    split
    · rfl
    · split <;> rfl

theorem remove?_eq_some {path : String} (h : d.remove? path = some e) :
    ∃ l, d.resolve? path = some l ∧ d.isDirectory l = false ∧ SameShape d e ∧
      ∀ k, e.node? k = if k = l then none else d.node? k := by
  unfold remove? at h
  obtain ⟨l, hl, h⟩ := Option.bind_eq_some_iff.1 h
  split at h
  · next content hf =>
    cases h
    have hd : d.isDirectory l = false := by
      rw [isDirectory, hf]
      rfl
    exact ⟨l, hl, hd, sameShape_unset hd, fun k => node?_unset (ne_nil_of_not_isDirectory hd) k⟩
  · cases h

end BoardMarkup.Disk
