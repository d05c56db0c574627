import BoardMarkup.Proofs.Board.Publication

/-! What a run has in hand before it writes anything, and what it then stores. -/
namespace BoardMarkup

/-- What compilation needs of a formatter, and what it makes of it. -/
theorem Formatter.compiled_of_artifacts {f : Formatter} {a : Artifacts} (h : f.artifacts = .ok a) :
    f.rendering.classPrefix ≠ "" ∧ ∃ dir, f.rendering.cacheDir = some dir ∧ f.Compiled dir a := by
  unfold artifacts at h
  split at h
  · cases h
  next dir hdir =>
    split at h
    · cases h
    next hne =>
      cases hfilters : f.checkFilters with
      | error e => rw [hfilters] at h; cases h
      | ok _ =>
        cases hsnapshot : f.snapshot with
        | error e => rw [hfilters, hsnapshot] at h; cases h
        | ok snapshot =>
          rw [hfilters, hsnapshot] at h
          cases h
          exact ⟨hne, dir, hdir, rfl, rfl, rfl⟩

namespace Board

/-- What is compiled from a formatter without its censor, and the record that goes with it. -/
def composed (f : Formatter) : Except CompileError (Artifacts × RendererRecord) :=
  match f.detachCensor.2.artifacts with
  | .error e => .error e
  | .ok a => .ok (a, ⟨a.renderer.className, f.detachCensor.2.rendering.classPrefix, f.detachCensor.1⟩)

def deposit (o : Options) (a : Artifacts) (r : RendererRecord) (s : Store) : Store :=
  (s.putJson o.parserKey a.parser.toJson).putJson o.rendererKey r.toJson

/-- Publishing writes the renderer that was composed, then the parser and the record. -/
theorem publish_eq (o : Options) (f : Formatter) (s : Store) : publish Formatter.compile o f s =
    match composed f with
    | .error e => (.error (.compile e), s)
    | .ok (a, r) =>
      match a.renderer.save s.disk with
      | (.ok (), disk) => (.ok a, deposit o a r { s with disk })
      | (.error e, disk) => (.error (.compile e), { s with disk }) := by
  unfold publish composed Formatter.compile
  cases ha : f.detachCensor.2.artifacts with
  | error e => simp only [ha]
  | ok a =>
    simp only [ha]
    rcases a.renderer.save s.disk with ⟨_ | _, d⟩ <;> rfl

theorem saved_of_publish {o : Options} {f : Formatter} {s t : Store} {a : Artifacts}
    (h : publish Formatter.compile o f s = (.ok a, t)) : ∃ r e, composed f = .ok (a, r) ∧
      a.renderer.save s.disk = (.ok (), e) ∧ t = deposit o a r { s with disk := e } := by
  rw [publish_eq] at h
  split at h
  · cases h
  next b r hc =>
    split at h
    · next e hsave =>
      cases h
      exact ⟨r, e, hc, hsave, rfl⟩
    · cases h

/-- A record as it is written with a renderer. -/
structure Recorded (a : Artifacts) (r : RendererRecord) : Prop where
  className : r.className = a.renderer.className
  classPrefix : r.classPrefix ≠ ""
  named : r.className = r.classPrefix ++ a.renderer.snapshot.digest
  file : ∃ dir, a.renderer.file = Path.join dir (rendererFileName r.className)

theorem recorded_of_composed {f : Formatter} {a : Artifacts} {r : RendererRecord}
    (h : composed f = .ok (a, r)) : Recorded a r := by
  unfold composed at h
  split at h
  · cases h
  next b hb =>
    cases h
    obtain ⟨hne, dir, -, hc⟩ := Formatter.compiled_of_artifacts hb
    exact ⟨rfl, hne, hc.className, dir, hc.file⟩

/-- A board with steady templates of its styles and plain ones of its own can always be compiled. -/
theorem composed_plain {o : Options} (styles : List StyleRow) (bbcodes : List BBCodeRow)
    (smilies : List SmileyRow) (words : List WordRow)
    (hs : ∀ s ∈ Style.latest (styles.map StyleRow.toSource), ∀ d ∈ Style.catalog,
      Steady (s.shown {} boardNormalizer (boardCheck o) d))
    (hb : ∀ r ∈ bbcodes, Plain (prefixLocalUrls o.boardUrl r.template)) (hp : o.classPrefix ≠ "") :
    ∃ a r, composed (finish (registered o styles bbcodes).formatter smilies words) = .ok (a, r) ∧
      r.classPrefix = o.classPrefix ∧
      a.renderer.file = Path.join o.cacheDir (rendererFileName a.renderer.className) := by
  have hsettings : (configured o).SameSettings (registered o styles bbcodes).formatter := registered_settings
  obtain ⟨hdir, hclass, hnormalizer, hcensor⟩ := board_settings hsettings
  obtain ⟨emoticons, autoemail, autolink, registeredVars, hdetached⟩ :=
    detachCensor_finish hcensor contains_censorTag_registered smilies words
  rw [composed, hdetached]
  rcases Formatter.artifacts_cases (f := { (registered o styles bbcodes).formatter with
      emoticons, autoemail, autolink, registeredVars }) hdir (hclass.symm ▸ hp)
    filtersPresent_registered with ⟨a, ha, hcompiled, -⟩ | ⟨k, t, p, hkt, hcheck, -⟩
  · rw [ha]
    exact ⟨a, _, rfl, hclass, hcompiled.file⟩
  · have hok := check_normalize_registered hs hb hkt
    rw [← hnormalizer] at hok
    rw [hok] at hcheck
    cases hcheck

end Board
end BoardMarkup
