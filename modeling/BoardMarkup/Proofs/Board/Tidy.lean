import BoardMarkup.Board.Publish
import BoardMarkup.Proofs.Disk.Directory

/-! What is kept when stale renderers are removed. -/
namespace BoardMarkup

namespace Disk

private theorem node?_remove? {d e : Disk} {path keep : String} (hw : d.Rooted d.workingDirectory)
    (h : d.remove? path = some e) (hk : Path.fileName? path ≠ some keep.toList) (l : Location) :
    e.node? (l ++ [keep]) = d.node? (l ++ [keep]) := by
  obtain ⟨m, hm, hfile, -, hn⟩ := remove?_eq_some h
  obtain ⟨k, name, rfl, hname⟩ := last_of_resolve? hw hm hfile
  rw [hn, if_neg]
  intro he
  have hlast : keep = name := by simpa using (List.append_inj' he rfl).2
  exact hk (by rw [hname, hlast])

/-- A path below a directory leads to the same file while all files of its name stay. -/
theorem SameShape.read?_join {d e : Disk} (h : d.SameShape e) {n : List Char} (hn : Path.IsName n)
    (hk : ∀ l, e.node? (l ++ [String.ofList n]) = d.node? (l ++ [String.ofList n])) (base : String) :
    e.read? (Path.join base (String.ofList n)) = d.read? (Path.join base (String.ofList n)) := by
  rw [read?, read?, find?, find?, h.resolve?]
  cases hr : d.resolve? (Path.join base (String.ofList n)) with
  | none => rfl
  | some l =>
    obtain ⟨-, -, k, -, -, rfl⟩ := (resolve?_join hn).1 hr
    simp only [Option.bind_eq_bind, Option.bind_some, hk]

theorem foldl_remove?_keeps {paths : List String} {keep : String}
    (hp : ∀ path ∈ paths, Path.fileName? path ≠ some keep.toList) {d : Disk}
    (hw : d.Rooted d.workingDirectory) :
    d.SameShape (paths.foldl (fun d path => (d.remove? path).getD d) d) ∧
      ∀ l, (paths.foldl (fun d path => (d.remove? path).getD d) d).node? (l ++ [keep]) =
        d.node? (l ++ [keep]) := by
  induction paths generalizing d with
  | nil => exact ⟨.refl d, fun _ => rfl⟩
  | cons path paths ih =>
    have hstep : d.SameShape ((d.remove? path).getD d) ∧
        ∀ l, ((d.remove? path).getD d).node? (l ++ [keep]) = d.node? (l ++ [keep]) := by
      cases hr : d.remove? path with
      | none => exact ⟨.refl d, fun _ => rfl⟩
      | some e => exact ⟨(remove?_eq_some hr).choose_spec.2.2.1, node?_remove? hw hr (hp path (by simp))⟩
    obtain ⟨hs, hn⟩ := ih (fun p h => hp p (List.mem_cons_of_mem _ h))
      (hw.workingDirectory_mono hstep.1.keeps)
    rw [List.foldl_cons]
    exact ⟨hstep.1.trans hs, fun l => (hn l).trans (hstep.2 l)⟩

end Disk

namespace Board

theorem sweep_keeps {d : Disk} (hw : d.Rooted d.workingDirectory)
    (directory classPrefix keep : String) :
    d.SameShape (sweep d directory classPrefix keep).2 ∧
      ∀ l, (sweep d directory classPrefix keep).2.node? (l ++ [keep]) = d.node? (l ++ [keep]) := by
  refine Disk.foldl_remove?_keeps (fun path hp => ?_) hw
  have hs := (List.mem_filter.1 hp).2
  simp only [isStale, Bool.and_eq_true, bne_iff_ne] at hs
  exact hs.1.1

/-- Tidying changes neither the cache nor directories, and keeps the renderer on record. -/
theorem tidy_keeps (o : Options) {s : Store} (hw : s.disk.Rooted s.disk.workingDirectory) :
    (tidy o s).2.cache = s.cache ∧ s.disk.SameShape (tidy o s).2.disk ∧
      ∀ r, rendererRecord? o s = some r → ∀ l,
        (tidy o s).2.disk.node? (l ++ [rendererFileName r.className]) =
          s.disk.node? (l ++ [rendererFileName r.className]) := by
  unfold tidy
  cases hr : rendererRecord? o s with
  | none => exact ⟨rfl, .refl _, fun r h => by cases h⟩
  | some r =>
    obtain ⟨hs, hn⟩ := sweep_keeps hw o.cacheDir
      (if r.classPrefix = "" then o.classPrefix else r.classPrefix) (rendererFileName r.className)
    refine ⟨rfl, hs, fun r' h l => ?_⟩
    cases h
    exact hn l

end Board
end BoardMarkup
