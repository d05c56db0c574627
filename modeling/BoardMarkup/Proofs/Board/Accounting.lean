import BoardMarkup.Proofs.Board.Publication

/-! What becomes of every definition of a board: it is kept, or reported for a reason. -/
namespace BoardMarkup.Board

open BBCode Markup Style

/-- A definition that is kept beside the usages already taken. -/
structure Admissible (filters : Table Filter) (taken : List Usage) (usage : String) (t : Template)
    (u : Usage) : Prop where
  usage : Usage.parse? usage = .ok u
  name : ∀ v ∈ taken, v.name ≠ u.name
  tagName : ∀ v ∈ taken, v.tagName ≠ u.tagName
  filters : ∀ n ∈ Filter.required u, Filter.available filters n
  tokens : Provides u t.source
  markup : check t.checked t.source = .ok ()

/-- When a reason is true of a definition. -/
inductive Applies (filters : Table Filter) (taken : List Usage) (usage : String) (t : Template) :
    DefinitionError → Prop
  | invalidUsage {fault : UsageFault} (h : Usage.parse? usage = .error fault) :
    Applies filters taken usage t (.invalidUsage usage fault)
  | duplicate {u v : Usage} (hu : Usage.parse? usage = .ok u) (hv : v ∈ taken)
    (h : v.name = u.name ∨ v.tagName = u.tagName) : Applies filters taken usage t (.duplicate u.name)
  | unknownFilter {u : Usage} {n : String} (hu : Usage.parse? usage = .ok u)
    (hn : n ∈ Filter.required u) (h : Filter.available filters n = false) :
    Applies filters taken usage t (.unknownFilter u.name n)
  | undefinedToken {u : Usage} {id : String} (hu : Usage.parse? usage = .ok u)
    (hid : id ∈ tokensOf t.source) (hl : isLanguageToken id = false) (h : u.defines id = false) :
    Applies filters taken usage t (.undefinedToken u.name id)
  | malformedTemplate {u : Usage} {fault : Fault} (hu : Usage.parse? usage = .ok u)
    (h : check t.checked t.source = .error (.fault fault)) :
    Applies filters taken usage t (.malformedTemplate u.name fault)
  | hazardousTemplate {u : Usage} {hazard : Hazard} (hu : Usage.parse? usage = .ok u)
    (h : check t.checked t.source = .error (.hazard hazard)) :
    Applies filters taken usage t (.hazardousTemplate u.name hazard)

/--
Definitions in order, each kept with its template or reported. One that is kept takes its names from
all that come later.
-/
inductive Sifted (filters : Table Filter) :
    List Usage → List (String × Template) → List (Usage × String) → List Skipped → Prop
  | nil (taken : List Usage) : Sifted filters taken [] [] []
  | keep {taken : List Usage} {usage : String} {t : Template} {u : Usage}
    {ds : List (String × Template)} {kept : List (Usage × String)} {reported : List Skipped}
    (h : Admissible filters taken usage t u) (rest : Sifted filters (taken ++ [u]) ds kept reported) :
    Sifted filters taken ((usage, t) :: ds) ((u, t.source) :: kept) reported
  | report {taken : List Usage} {usage : String} {t : Template} {e : DefinitionError}
    {ds : List (String × Template)} {kept : List (Usage × String)} {reported : List Skipped}
    (h : ∀ u, ¬ Admissible filters taken usage t u) (he : Applies filters taken usage t e)
    (rest : Sifted filters taken ds kept reported) :
    Sifted filters taken ((usage, t) :: ds) kept (⟨usage, none, e⟩ :: reported)

/-- The BBCodes of a formatter are those of the entries. So are its tags, but for that of censored words. -/
structure Registers (f : Formatter) (entries : List (Usage × String)) : Prop where
  bbcodes : ∀ k u, f.bbcodes.get? k = some u ↔ ∃ e ∈ entries, e.1.name = k ∧ e.1 = u
  tags : ∀ k t, k ≠ censorTag →
    (f.tags.get? k = some t ↔ ∃ e ∈ entries, e.1.tagName = k ∧ e.2 = t)

section Reasons

variable {filters : Table Filter} {taken : List Usage} {usage : String} {t : Template} {u : Usage}

/-- No definition is kept that there is a reason to refuse. -/
theorem Applies.not_admissible {e : DefinitionError} (h : Applies filters taken usage t e) :
    ¬ Admissible filters taken usage t u := by
  intro ha
  have hsame : ∀ {v : Usage}, Usage.parse? usage = .ok v → v = u := fun hv =>
    Except.ok.inj (hv.symm.trans ha.usage)
  cases h with
  | invalidUsage h =>
    rw [ha.usage] at h
    cases h
  | duplicate hv hw h =>
    cases hsame hv
    exact h.elim (ha.name _ hw) (ha.tagName _ hw)
  | unknownFilter hv hn h =>
    cases hsame hv
    rw [ha.filters _ hn] at h
    cases h
  | undefinedToken hv hid hl h =>
    cases hsame hv
    rcases ha.tokens _ hid with hid | hid
    · rw [hl] at hid
      cases hid
    · rw [h] at hid
      cases hid
  | malformedTemplate hv h =>
    rw [ha.markup] at h
    cases h
  | hazardousTemplate hv h =>
    rw [ha.markup] at h
    cases h

private theorem applies_of_validate {e : DefinitionError} (hu : Usage.parse? usage = .ok u)
    (h : t.validate u = .error e) : Applies filters taken usage t e := by
  unfold Template.validate at h
  split at h
  · next id hf =>
    cases h
    have hp := List.find?_some hf
    simp only [Bool.and_eq_true, Bool.not_eq_true'] at hp
    exact .undefinedToken hu (List.mem_of_find?_eq_some hf) hp.1 hp.2
  · split at h
    · cases h
    · next hc =>
      cases h
      exact .malformedTemplate hu hc
    · next hc =>
      cases h
      exact .hazardousTemplate hu hc

theorem applies_of_checkUsage {f : Formatter} {e : DefinitionError} (hu : Usage.parse? usage = .ok u)
    (h : f.checkUsage u t = .error e) : Applies f.filters taken usage t e := by
  unfold Formatter.checkUsage at h
  split at h
  · next n hf =>
    cases h
    exact .unknownFilter hu (List.mem_of_find?_eq_some hf) (by simpa using List.find?_some hf)
  · exact applies_of_validate hu h

end Reasons

namespace Registers

variable {f : Formatter} {entries : List (Usage × String)} {usage : String} {t : Template} {u : Usage}

theorem contains_name (h : Registers f entries) (k : String) :
    f.bbcodes.contains k = true ↔ ∃ e ∈ entries, e.1.name = k :=
  Table.contains_iff_of_listed (h.bbcodes k)

theorem contains_tagName (h : Registers f entries) {k : String} (hk : k ≠ censorTag) :
    f.tags.contains k = true ↔ ∃ e ∈ entries, e.1.tagName = k :=
  Table.contains_iff_of_listed fun t => h.tags k t hk

/-- A formatter accepts just the definitions that are admissible beside its entries. -/
theorem define_eq_ok_iff (h : Registers f entries) {g : Formatter} :
    f.define usage t = .ok (u, g) ↔
      Admissible f.filters (entries.map (·.1)) usage t u ∧ g = f.register u t := by
  have hname : f.bbcodes.contains u.name = false ↔ ∀ v ∈ entries.map (·.1), v.name ≠ u.name := by
    rw [← Bool.not_eq_true, h.contains_name, List.forall_mem_map]
    simp
  rw [Formatter.define_eq_ok_iff, hname, Formatter.checkUsage_eq_ok_iff,
    Formatter.missingFilter?_eq_none_iff, validate_eq_ok_iff]
  have htag : Formatter.readUsage usage = .ok u →
      (f.tags.contains u.tagName = false ↔ ∀ v ∈ entries.map (·.1), v.tagName ≠ u.tagName) := by
    intro hu
    rw [← Bool.not_eq_true, h.contains_tagName (tagName_ne_censorTag hu), List.forall_mem_map]
    simp
  constructor
  · rintro ⟨hu, hn, ht, ⟨hf, hp, hc⟩, rfl⟩
    exact ⟨⟨Formatter.readUsage_eq_ok_iff.1 hu, hn, (htag hu).1 ht, hf, hp, hc⟩, rfl⟩
  · rintro ⟨⟨hu, hn, ht, hf, hp, hc⟩, rfl⟩
    have hu := Formatter.readUsage_eq_ok_iff.2 hu
    exact ⟨hu, hn, (htag hu).2 ht, ⟨hf, hp, hc⟩, rfl⟩

/-- What a formatter refuses a definition for is true of it. -/
theorem applies_of_define (h : Registers f entries) {e : DefinitionError}
    (he : f.define usage t = .error e) : Applies f.filters (entries.map (·.1)) usage t e := by
  rcases Formatter.define_error_cases he with ⟨fault, hu, rfl⟩ | ⟨u, hr, ⟨htaken, rfl⟩ | hc⟩
  · exact .invalidUsage hu
  · have hu := Formatter.readUsage_eq_ok_iff.1 hr
    rw [h.contains_name, h.contains_tagName (tagName_ne_censorTag hr)] at htaken
    rcases htaken with ⟨v, hv, hk⟩ | ⟨v, hv, hk⟩
    · exact .duplicate hu (List.mem_map_of_mem hv) (.inl hk)
    · exact .duplicate hu (List.mem_map_of_mem hv) (.inr hk)
  · exact applies_of_checkUsage (Formatter.readUsage_eq_ok_iff.1 hr) hc

theorem register (h : Registers f entries)
    (ha : Admissible f.filters (entries.map (·.1)) usage t u) :
    Registers (f.register u t) (entries ++ [(u, t.source)]) := by
  have hname := List.forall_mem_map.1 ha.name
  have htag := List.forall_mem_map.1 ha.tagName
  exact ⟨fun k => Table.listed_insert (h.bbcodes k) (y := (u, t.source)) hname,
    fun k s hk => Table.listed_insert (fun s => h.tags k s hk) (y := (u, t.source)) htag s⟩

theorem withViewSwitches {a : Assembly} (h : Registers a.formatter entries) :
    Registers a.withViewSwitches.formatter
      (entries.map fun e => (e.1, shownTemplate e.1.tagName e.2)) := by
  constructor
  · intro k u
    rw [Assembly.bbcodes_withViewSwitches, h.bbcodes]
    simp only [List.mem_map, exists_exists_and_eq_and]
  · intro k s hk
    rw [Assembly.get?_tags_withViewSwitches, Option.map_eq_some_iff]
    simp only [h.tags k _ hk, List.mem_map, exists_exists_and_eq_and]
    constructor
    · rintro ⟨_, ⟨e, he, rfl, rfl⟩, rfl⟩
      exact ⟨e, he, rfl, rfl⟩
    · rintro ⟨e, he, rfl, rfl⟩
      exact ⟨_, ⟨e, he, rfl, rfl⟩, rfl⟩

theorem finished {a : Assembly} (h : Registers a.formatter entries) (smilies : List SmileyRow)
    (words : List WordRow) : Registers (a.finished smilies words).formatter entries := by
  constructor
  · intro k u
    rw [Assembly.bbcodes_finished]
    exact h.bbcodes k u
  · intro k s hk
    rw [Assembly.get?_tags_finished _ _ _ hk]
    exact h.tags k s hk

end Registers

/-- All definitions are sifted, in order, by the names of the entries that are there before. -/
theorem Assembly.sifted_defineAll {a : Assembly} {entries : List (Usage × String)}
    (h : Registers a.formatter entries) (ds : List (String × Template)) :
    ∃ kept reported, Sifted a.formatter.filters (entries.map (·.1)) ds kept reported ∧
      (a.defineAll ds).skipped = a.skipped ++ reported ∧
      Registers (a.defineAll ds).formatter (entries ++ kept) := by
  induction ds generalizing a entries with
  | nil => exact ⟨[], [], .nil _, by simp [defineAll], by simpa [defineAll] using h⟩
  | cons d ds ih =>
    obtain ⟨usage, t⟩ := d
    have hstep : a.defineAll ((usage, t) :: ds) = (a.define usage t).defineAll ds := rfl
    rw [hstep]
    cases hd : a.formatter.define usage t with
    | ok found =>
      obtain ⟨u, g⟩ := found
      obtain ⟨ha, rfl⟩ := h.define_eq_ok_iff.1 hd
      rw [define_of_ok hd]
      obtain ⟨kept, reported, hs, hskipped, hr⟩ :=
        ih (a := { a with formatter := a.formatter.register u t }) (h.register ha)
      rw [List.map_append] at hs
      rw [List.append_assoc] at hr
      exact ⟨(u, t.source) :: kept, reported, .keep ha hs, hskipped, hr⟩
    | error e =>
      have he := h.applies_of_define hd
      rw [define_of_error hd]
      obtain ⟨kept, reported, hs, hskipped, hr⟩ :=
        ih (a := { a with skipped := a.skipped ++ [⟨usage, none, e⟩] }) h
      rw [List.append_assoc] at hskipped
      exact ⟨kept, _, .report (fun _ => he.not_admissible) he hs, hskipped, hr⟩

theorem Registers.configured (o : Options) : Registers (configured o) [] := by
  constructor
  · exact fun k u => ⟨fun h => (by cases h), fun ⟨e, he, _⟩ => (by cases he)⟩
  · exact fun k t _ => ⟨fun h => (by cases h), fun ⟨e, he, _⟩ => (by cases he)⟩

/--
The directives are sifted first, whatever the board's own BBCodes are, and then these, by the names
that are left. The BBCodes of the formatter are all that is kept, and all else is reported,
behind the overrides that styles were refused.
-/
theorem definitions_accounted (o : Options) (styles : List StyleRow) :
    (∀ r ∈ refused o styles, r.style.isSome) ∧
    ∃ directives left, Sifted (configured o).filters [] (definitions o styles catalog) directives left ∧
      ∀ bbcodes smilies words, ∃ a custom reported,
        assemble (m := Id) .none o (.ofRows styles bbcodes smilies words) = .ok a ∧
        Sifted (configured o).filters (directives.map (·.1)) (customDefinitions o bbcodes) custom reported ∧
        a.skipped = refused o styles ++ left ++ reported ∧
        Registers a.formatter
          (directives.map (fun e => (e.1, shownTemplate e.1.tagName e.2)) ++ custom) := by
  refine ⟨fun r hr => ?_, ?_⟩
  · obtain ⟨_, -, rfl⟩ := List.mem_map.1 hr
    rfl
  · obtain ⟨directives, left, hs, hskipped, hr⟩ := Assembly.sifted_defineAll
      (a := ⟨configured o, refused o styles⟩) (.configured o) (definitions o styles catalog)
    rw [← addDirectives_eq] at hskipped hr
    refine ⟨directives, left, hs, fun bbcodes smilies words => ?_⟩
    obtain ⟨custom, reported, hs', hskipped', hr'⟩ := Assembly.sifted_defineAll
      (a := directiveAssembly o styles) hr.withViewSwitches (customDefinitions o bbcodes)
    refine ⟨furnished o styles bbcodes smilies words, custom, reported, ?_, ?_, ?_, ?_⟩
    · have h := furnish_ofRows o styles bbcodes smilies words
      simp only [assemble, Hooks.none, pure_bind, h]
      rfl
    · have hfilters : (directiveAssembly o styles).formatter.filters = (configured o).filters := by
        obtain ⟨_, _, hsame⟩ : (configured o).SameSettings _ := directiveAssembly_settings
        rw [hsame]
      rwa [hfilters, List.map_map] at hs'
    · rw [furnished, Assembly.skipped_finished, hskipped', skipped_directiveAssembly, hskipped]
    · exact hr'.finished smilies words

end BoardMarkup.Board
