import BoardMarkup.Proofs.Formatter.Renderer
import BoardMarkup.Proofs.Table

/-! Compilation fails only for a template that is refused once it is normalized. -/
namespace BoardMarkup.Formatter

def Accepts (f : Formatter) (template : String) : Prop :=
  Markup.check false (f.normalizer.normalize template) = .ok ()

theorem templates_cases (f : Formatter) (es : List (String × String)) :
    (∃ ts, f.templates es = .ok ts ∧ ∀ e ∈ es, f.Accepts e.2) ∨
      ∃ e ∈ es, ∃ p, Markup.check false (f.normalizer.normalize e.2) = .error p ∧
        f.templates es = .error (.malformedTemplate e.1 p) := by
  induction es with
  | nil => exact .inl ⟨[], rfl, by simp⟩
  | cons e es ih =>
    obtain ⟨tag, source⟩ := e
    cases hc : Markup.check false (f.normalizer.normalize source) with
    | error p =>
      refine .inr ⟨(tag, source), by simp, p, hc, ?_⟩
      simp only [templates, hc]
    | ok _ =>
      rcases ih with ⟨ts, hts, hall⟩ | ⟨e, he, p, hp, herror⟩
      · refine .inl ⟨(tag, f.normalizer.normalize source) :: ts, ?_, ?_⟩
        · simp only [templates, hc, hts]
          rfl
        · rintro d (_ | ⟨_, hd⟩)
          · exact hc
          · exact hall d hd
      · refine .inr ⟨e, .tail _ he, p, hp, ?_⟩
        simp only [templates, hc, herror]
        rfl

theorem checkFilters_eq_ok {f : Formatter}
    (h : ∀ k u, f.bbcodes.get? k = some u → f.missingFilter? u = none) : f.checkFilters = .ok () := by
  have hall : f.bbcodes.values.findSome? (fun u => (f.missingFilter? u).map fun n => (u.name, n)) =
      none := by
    rw [List.findSome?_eq_none_iff]
    intro u hu
    obtain ⟨e, he, rfl⟩ := List.mem_map.1 hu
    rw [h e.1 e.2 (Table.get?_eq_some_iff.2 he), Option.map_none]
  rw [checkFilters, hall]

structure Compiled (f : Formatter) (dir : String) (a : Artifacts) : Prop where
  parser : a.parser = .ofFormatter f
  className : a.renderer.className = f.rendering.classPrefix ++ a.renderer.snapshot.digest
  file : a.renderer.file = Path.join dir (rendererFileName a.renderer.className)

theorem artifacts_cases {f : Formatter} {dir : String} (hdir : f.rendering.cacheDir = some dir)
    (hne : f.rendering.classPrefix ≠ "")
    (hfilters : ∀ k u, f.bbcodes.get? k = some u → f.missingFilter? u = none) :
    (∃ a, f.artifacts = .ok a ∧ f.Compiled dir a ∧ ∀ k t, f.tags.get? k = some t → f.Accepts t) ∨
      ∃ k t p, f.tags.get? k = some t ∧ Markup.check false (f.normalizer.normalize t) = .error p ∧
        f.artifacts = .error (.malformedTemplate k p) := by
  have hc := checkFilters_eq_ok hfilters
  rcases f.templates_cases f.tags.entries with ⟨ts, hts, hall⟩ | ⟨e, he, p, hp, herror⟩
  · left
    simp only [artifacts, hdir, if_neg hne, hc, snapshot, hts]
    exact ⟨_, rfl, ⟨rfl, rfl, rfl⟩, fun k t ht => hall (k, t) (Table.get?_eq_some_iff.1 ht)⟩
  · right
    refine ⟨e.1, e.2, p, Table.get?_eq_some_iff.2 he, hp, ?_⟩
    simp only [artifacts, hdir, if_neg hne, hc, snapshot, herror]
    rfl

/-- Compiling writes the renderer, or names a template that is refused and leaves the disk alone. -/
theorem compile_cases {f : Formatter} {d : Disk} {dir : String}
    (hdir : f.rendering.cacheDir = some dir) (hne : f.rendering.classPrefix ≠ "")
    (hfilters : ∀ k u, f.bbcodes.get? k = some u → f.missingFilter? u = none)
    (h : d.Hosts dir f.rendering.classPrefix) :
    (∃ a e, f.compile d = (.ok a, e) ∧ f.Compiled dir a ∧ (d.prepared dir).SameShape e ∧
      e.read? a.renderer.file = some (a.renderer.snapshot.fileText a.renderer.className).toUTF8 ∧
      ∀ k t, f.tags.get? k = some t → f.Accepts t) ∨
    ∃ k t p, f.tags.get? k = some t ∧ Markup.check false (f.normalizer.normalize t) = .error p ∧
      f.compile d = (.error (.malformedTemplate k p), d) := by
  rcases artifacts_cases hdir hne hfilters with ⟨a, ha, hcompiled, hall⟩ | ⟨k, t, p, ht, hp, herror⟩
  · obtain ⟨digits, hdigits, hdigest⟩ := a.renderer.snapshot.exists_digest
    obtain ⟨e, hsave, hs, hread⟩ := h.save_eq_ok hdigits (hdigest ▸ hcompiled.className) hcompiled.file
    refine .inl ⟨a, e, ?_, hcompiled, hs, hread, hall⟩
    simp only [compile, ha, hsave]
  · refine .inr ⟨k, t, p, ht, hp, ?_⟩
    simp only [compile, herror]

end BoardMarkup.Formatter
