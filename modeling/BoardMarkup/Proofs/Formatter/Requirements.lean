import BoardMarkup.Proofs.BBCode.Needs
import BoardMarkup.Proofs.Formatter.Registry

/-! BBCodes have the filters that they need, or compiling a formatter names one that is missing. -/
namespace BoardMarkup

open BBCode

namespace Formatter

variable {f : Formatter} {u : Usage} {e : CompileError}

/-- A missing filter is one that the usage needs. -/
theorem missingFilter?_ne_none_iff (hu : Usage.parse? u.source = .ok u) :
    f.missingFilter? u ≠ none ↔ ∃ n, Needs u.source n ∧ Filter.available f.filters n = false := by
  rw [ne_eq, missingFilter?_eq_none_iff]
  simp [mem_required_iff_needs hu]

theorem needs_of_missingFilter? (hu : Usage.parse? u.source = .ok u) {n : String}
    (h : f.missingFilter? u = some n) : Needs u.source n ∧ Filter.available f.filters n = false :=
  ⟨(mem_required_iff_needs hu).1 (List.mem_of_find?_eq_some h), by simpa using List.find?_some h⟩

theorem checkFilters_eq_error (h : f.checkFilters = .error e) :
    ∃ k u n, f.bbcodes.get? k = some u ∧ f.missingFilter? u = some n ∧ e = .unknownFilter u.name n := by
  unfold checkFilters at h
  split at h
  · next name n hfound =>
    cases h
    obtain ⟨u, hu, hmissing⟩ := List.exists_of_findSome?_eq_some hfound
    obtain ⟨m, hm, he⟩ := Option.map_eq_some_iff.1 hmissing
    cases he
    obtain ⟨entry, hentry, rfl⟩ := List.mem_map.1 hu
    exact ⟨entry.1, entry.2, n, Table.get?_eq_some_iff.2 hentry, hm, rfl⟩
  · cases h

theorem checkFilters_eq_ok_iff :
    f.checkFilters = .ok () ↔ ∀ k u, f.bbcodes.get? k = some u → f.missingFilter? u = none := by
  refine ⟨fun h k u hu => ?_, checkFilters_eq_ok⟩
  unfold checkFilters at h
  split at h
  · cases h
  · next hnone =>
    have hmem : u ∈ f.bbcodes.values := List.mem_map.2 ⟨(k, u), Table.get?_eq_some_iff.1 hu, rfl⟩
    exact Option.map_eq_none_iff.1 (List.findSome?_eq_none_iff.1 hnone u hmem)

end Formatter

private theorem Renderer.save_error {r : Renderer} {d : Disk} {e : CompileError}
    (h : (r.save d).1 = .error e) :
    e = .unwritable r.file := by
  unfold save at h
  cases hp : Path.parent? r.file with
  | none =>
    rw [hp] at h
    simp only [if_true] at h
    split at h
    · cases h
    · cases h
      rfl
  | some parent =>
    rw [hp] at h
    simp only at h
    split at h
    · split at h
      · cases h
      · cases h
        rfl
    · cases h
      rfl

namespace Formatter

variable {f : Formatter} {dir : String}

/-- Filters are looked at before the disk, and whatever else fails has another name. -/
theorem compile_unknownFilter_iff (hdir : f.rendering.cacheDir = some dir)
    (hne : f.rendering.classPrefix ≠ "") (d : Disk) {name n : String} :
    (f.compile d).1 = .error (.unknownFilter name n) ↔ f.checkFilters = .error (.unknownFilter name n) := by
  cases hfilters : f.checkFilters with
  | error e => simp [compile, artifacts, hdir, hne, hfilters, bind, Except.bind]
  | ok _ =>
    rw [checkFilters_eq_ok_iff] at hfilters
    refine ⟨fun h => ?_, fun h => absurd h (by simp)⟩
    rcases artifacts_cases hdir hne hfilters with ⟨a, ha, -⟩ | ⟨k, t, p, -, -, ha⟩
    · simp only [compile, ha] at h
      split at h
      · cases h
      · next e _ he =>
        cases h
        have hsave : (a.renderer.save d).1 = .error (.unknownFilter name n) := by rw [he]
        cases Renderer.save_error hsave
    · simp only [compile, ha] at h
      cases h

/-- The error names a registered BBCode and the filter that it misses. -/
theorem missingFilter?_of_compile (hdir : f.rendering.cacheDir = some dir)
    (hne : f.rendering.classPrefix ≠ "")
    (hnamed : ∀ k u, f.bbcodes.get? k = some u → k = u.name) {d : Disk} {name n : String}
    (hc : (f.compile d).1 = .error (.unknownFilter name n)) :
    ∃ u, f.bbcodes.get? name = some u ∧ f.missingFilter? u = some n := by
  rw [compile_unknownFilter_iff hdir hne] at hc
  obtain ⟨k, u, m, hu, hm, he⟩ := checkFilters_eq_error hc
  cases he
  exact ⟨u, hnamed k u hu ▸ hu, hm⟩

theorem compile_unknownFilter_of_missing (hdir : f.rendering.cacheDir = some dir)
    (hne : f.rendering.classPrefix ≠ "") {k : String} {u : Usage} (hu : f.bbcodes.get? k = some u)
    (hmissing : f.missingFilter? u ≠ none) (d : Disk) :
    ∃ name n, (f.compile d).1 = .error (.unknownFilter name n) := by
  cases hc : f.checkFilters with
  | ok _ => exact absurd (checkFilters_eq_ok_iff.1 hc k u hu) hmissing
  | error e =>
    obtain ⟨-, v, m, -, -, rfl⟩ := checkFilters_eq_error hc
    exact ⟨v.name, m, (compile_unknownFilter_iff hdir hne d).2 hc⟩

end Formatter

namespace History

def Sourced (h : History) : Prop :=
  ∀ k u, h.formatter.bbcodes.get? k = some u → Usage.parse? u.source = .ok u

def Provided (h : History) : Prop :=
  ∀ k u, h.formatter.bbcodes.get? k = some u → h.formatter.missingFilter? u = none

theorem get?_bbcodes_step {h : History} {x : Edit} {k : String} {u : Usage}
    (hu : (h.step x).formatter.bbcodes.get? k = some u) :
    h.formatter.bbcodes.get? k = some u ∨
      ∃ usage t, x = .define usage t ∧ Formatter.readUsage usage = .ok u ∧
      h.formatter.checkUsage u t = .ok () := by
  have ht := takes_step h x
  generalize h.step x = next at ht hu
  cases ht with
  | define read _ _ check =>
    rcases Table.get?_insert_eq_some_iff.1 hu with ⟨-, rfl⟩ | ⟨-, hold⟩
    · exact .inr ⟨_, _, rfl, read, check⟩
    · exact .inl hold
  | remove => exact .inl (Table.get?_erase_eq_some_iff.1 hu).2
  | detachCensor =>
    simp only [Formatter.detachCensor] at hu
    split at hu <;> exact .inl hu
  | same => exact .inl hu
  | addFilter => exact .inl hu
  | removeFilter => exact .inl hu
  | loadCensor => exact .inl hu

theorem available_step {h : History} {x : Edit} (hx : ∀ name, x ≠ .removeFilter name) {n : String}
    (hn : Filter.available h.formatter.filters n = true) :
    Filter.available (h.step x).formatter.filters n = true := by
  have ht := takes_step h x
  generalize h.step x = next at ht ⊢
  cases ht with
  | addFilter =>
    simp only [Filter.available, Table.contains_insert, Bool.or_eq_true] at hn ⊢
    tauto
  | removeFilter name => exact absurd rfl (hx name)
  | detachCensor =>
    simp only [Formatter.detachCensor]
    split <;> exact hn
  | same => exact hn
  | define => exact hn
  | remove => exact hn
  | loadCensor => exact hn

theorem Sourced.step {h : History} (hs : Sourced h) (x : Edit) : Sourced (h.step x) := by
  intro k u hu
  rcases get?_bbcodes_step hu with hu | ⟨usage, t, -, hread, -⟩
  · exact hs k u hu
  · exact parse?_source (Formatter.readUsage_eq_ok_iff.1 hread)

theorem sourced_run (edits : List Edit) : Sourced (run edits) :=
  run_induction (fun _ _ h => by cases h) edits fun _ x _ hs => hs.step x

/-- A BBCode is registered with its filters, and keeps them as long as none is removed. -/
theorem Provided.step {h : History} (hp : Provided h) {x : Edit} (hx : ∀ name, x ≠ .removeFilter name) :
    Provided (h.step x) := by
  intro k u hu
  have hold : h.formatter.missingFilter? u = none := by
    rcases get?_bbcodes_step hu with hu | ⟨usage, t, -, -, hcheck⟩
    · exact hp k u hu
    · exact (Formatter.checkUsage_eq_ok_iff.1 hcheck).1
  rw [Formatter.missingFilter?_eq_none_iff] at hold ⊢
  exact fun n hn => available_step hx (hold n hn)

private theorem provided_run {edits : List Edit} (h : ∀ name, .removeFilter name ∉ edits) :
    Provided (run edits) :=
  run_induction (fun _ _ h => by cases h) edits fun _ _ hx hp => hp.step fun name he => h name (he ▸ hx)

/--
However a formatter was edited: a BBCode is accepted only where all filters are available that the tokens
in its usage ask for. It compiles to an unknown filter just when some BBCode now needs one that is not
available, and so never as long as no filter was removed.
-/
theorem needed_filters_available (edits : List Edit) :
    (∀ usage t u f, (run edits).formatter.define usage t = .ok (u, f) →
      u.source = Text.trim usage ∧ f.bbcodes.get? u.name = some u ∧
        ∀ n, Needs usage n → Filter.available f.filters n = true) ∧
    ∀ (f : Formatter) (dir : String) (d : Disk), f.bbcodes = (run edits).formatter.bbcodes →
      f.filters = (run edits).formatter.filters → f.rendering.cacheDir = some dir →
      f.rendering.classPrefix ≠ "" →
      ((∃ name n, (f.compile d).1 = .error (.unknownFilter name n)) ↔
        ∃ k u n, f.bbcodes.get? k = some u ∧ Needs u.source n ∧ Filter.available f.filters n = false) ∧
      (∀ name n, (f.compile d).1 = .error (.unknownFilter name n) →
        ∃ u, f.bbcodes.get? name = some u ∧ Needs u.source n ∧ Filter.available f.filters n = false) ∧
      ((∀ name, .removeFilter name ∉ edits) →
        ∀ name n, (f.compile d).1 ≠ .error (.unknownFilter name n)) := by
  refine ⟨fun usage t u f hdefine => ?_, fun f dir d hbbcodes hfilters hdir hne => ?_⟩
  · obtain ⟨hread, -, -, hcheck, rfl⟩ := Formatter.define_eq_ok_iff.1 hdefine
    have hu := Formatter.readUsage_eq_ok_iff.1 hread
    have hall := Formatter.missingFilter?_eq_none_iff.1 (Formatter.checkUsage_eq_ok_iff.1 hcheck).1
    refine ⟨(parse?_rules hu).2, by simp [Formatter.register], fun n hn => ?_⟩
    exact hall n ((mem_required_iff_needs hu).2 hn)
  · have hsourced := sourced_run edits
    have hnamed := (consistent_run edits).named
    simp only [Sourced, ← hbbcodes] at hsourced hnamed
    have hneeded : ∀ name n, (f.compile d).1 = .error (.unknownFilter name n) →
        ∃ u, f.bbcodes.get? name = some u ∧ Needs u.source n ∧ Filter.available f.filters n = false := by
      intro name n hc
      obtain ⟨u, hu, hm⟩ := Formatter.missingFilter?_of_compile hdir hne hnamed hc
      exact ⟨u, hu, Formatter.needs_of_missingFilter? (hsourced name u hu) hm⟩
    refine ⟨⟨?_, ?_⟩, hneeded, ?_⟩
    · rintro ⟨name, n, hc⟩
      obtain ⟨u, hu, hneeds⟩ := hneeded name n hc
      exact ⟨name, u, n, hu, hneeds⟩
    · rintro ⟨k, u, n, hu, hneeds⟩
      have hmissing := (Formatter.missingFilter?_ne_none_iff (hsourced k u hu)).2 ⟨n, hneeds⟩
      exact Formatter.compile_unknownFilter_of_missing hdir hne hu hmissing d
    · intro hremoved name n hc
      obtain ⟨u, hu, hm⟩ := Formatter.missingFilter?_of_compile hdir hne hnamed hc
      have hnone := provided_run hremoved name u (hbbcodes ▸ hu)
      rw [Formatter.missingFilter?, ← hfilters, ← Formatter.missingFilter?, hm] at hnone
      cases hnone

/-- A filter that is removed is missed as soon as the formatter is compiled. -/
example : (run [.addFilter "#side" (.callback "side"), .define "[b side={SIDE1}]{TEXT}[/b]" ⟨"<b/>", true⟩,
    .removeFilter "#side"]).formatter.checkFilters.toOption = none := by
  decide +kernel

end History
end BoardMarkup
