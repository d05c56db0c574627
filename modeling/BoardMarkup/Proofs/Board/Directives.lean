import BoardMarkup.Proofs.Board.Defaults
import BoardMarkup.Proofs.Style.Rejection

/-! The directives on a board with styles: which of them are registered, and with which template. -/
namespace BoardMarkup.Board

open BBCode Markup Style

def boardCheck (o : Options) (d : Directive) (t : String) : Except DefinitionError Unit :=
  (configured o).check d.usage ⟨t, true⟩

/-- The switch between the templates that the styles of a board use for a directive. -/
def boardSwitch (o : Options) (rows : List StyleRow) (d : Directive) : Switch :=
  switchFor {} boardNormalizer (boardCheck o) (rows.map StyleRow.toSource) d

section Directives

variable {o : Options} {rows : List StyleRow} {d : Directive} {u : Usage}

theorem check_boardSwitch (h : d ∈ catalog) {t : String} (ht : t ∈ (boardSwitch o rows d).templates) :
    boardCheck o d t = .ok () := by
  have hok : (boardCheck o d t).isOk := isOk_of_mem_templates (by rw [boardCheck, check_fallback o h]; rfl) ht
  cases hc : boardCheck o d t with
  | ok _ => rfl
  | error e => simp [hc, Except.isOk, Except.toBool] at hok

theorem evaluate_boardSwitch (h : d ∈ catalog) {s : Source}
    (hs : s ∈ latest (rows.map StyleRow.toSource)) :
    (boardSwitch o rows d).evaluate s.id = s.shown {} boardNormalizer (boardCheck o) d := by
  rw [boardSwitch, evaluate_switchFor h hs]

def definitions (o : Options) (rows : List StyleRow) (ds : List Directive) :
    List (String × Template) :=
  ds.map fun d => (d.usage, ⟨(boardSwitch o rows d).render, true⟩)

def refused (o : Options) (rows : List StyleRow) : List Skipped :=
  (resolve {} boardNormalizer (boardCheck o) (rows.map StyleRow.toSource)).2.map fun r =>
    ⟨r.directive.usage, some r.style, r.error⟩

theorem addDirectives_eq (o : Options) (rows : List StyleRow) :
    addDirectives (configured o) rows =
      Assembly.defineAll ⟨configured o, refused o rows⟩ (definitions o rows catalog) := by
  have h := resolve_eq {} boardNormalizer (boardCheck o) (rows.map StyleRow.toSource)
  rw [addDirectives, Assembly.defineAll, definitions, List.foldl_map]
  change List.foldl _ _ (resolve {} boardNormalizer (boardCheck o) (rows.map StyleRow.toSource)).1 = _
  rw [h, List.foldl_map]
  rfl

/-- Definitions of directives leave all names free but their own. -/
theorem names_free (o : Options) (rows : List StyleRow) {ds : List Directive} {name tag : String}
    (hds : ∀ c ∈ ds, c ∈ catalog ∧ nameOf c ≠ name ∧ upper c.name ≠ tag) {a : Assembly}
    (hname : a.formatter.bbcodes.contains name = false)
    (htag : a.formatter.tags.contains tag = false) :
    (a.defineAll (definitions o rows ds)).formatter.bbcodes.contains name = false ∧
      (a.defineAll (definitions o rows ds)).formatter.tags.contains tag = false := by
  have hother : ∀ e ∈ definitions o rows ds, ∀ u, Formatter.readUsage e.1 = .ok u →
      u.name ≠ name ∧ u.tagName ≠ tag := by
    intro e he u hu
    obtain ⟨c, hc, rfl⟩ := List.mem_map.1 he
    obtain ⟨hcatalog, hne⟩ := hds c hc
    obtain ⟨hun, hut⟩ := usage_names hcatalog (Formatter.readUsage_eq_ok_iff.1 hu)
    rwa [hun, hut]
  constructor <;> refine Bool.eq_false_iff.2 fun hc => ?_
  · rcases Assembly.contains_name_defineAll hc with hc | ⟨e, he, u, hu, hk⟩
    · rw [hname] at hc
      cases hc
    · exact (hother e he u hu).1 hk
  · rcases Assembly.contains_tag_defineAll hc with hc | ⟨e, he, u, hu, hk⟩
    · rw [htag] at hc
      cases hc
    · exact (hother e he u hu).2 hk

private theorem split_catalog (h : d ∈ catalog) : ∃ before after, catalog = before ++ d :: after ∧
    ∀ c ∈ before ++ after, c ∈ catalog ∧ nameOf c ≠ nameOf d ∧ upper c.name ≠ upper d.name := by
  obtain ⟨before, after, he⟩ := List.append_of_mem h
  have hp := pairwise_nameOf
  rw [he, List.pairwise_append, List.pairwise_cons] at hp
  refine ⟨before, after, he, fun c hc => ?_⟩
  rcases List.mem_append.1 hc with hc | hc
  · exact ⟨by simp [he, hc], hp.2.2 c hc d (by simp)⟩
  · exact ⟨by simp [he, hc], (hp.2.1.1 c hc).1.symm, (hp.2.1.1 c hc).2.symm⟩

/-- Whether a directive is registered is decided when its turn comes. -/
theorem addDirectives_split (o : Options) (rows : List StyleRow) (h : d ∈ catalog)
    (hu : Usage.parse? d.usage = .ok u) :
    ∃ a : Assembly, a.formatter.filters = (configured o).filters ∧
      a.formatter.bbcodes.contains u.name = false ∧ a.formatter.tags.contains u.tagName = false ∧
      ∃ after, (∀ c ∈ after, c ∈ catalog ∧ nameOf c ≠ nameOf d ∧ upper c.name ≠ upper d.name) ∧
        addDirectives (configured o) rows =
          (a.define d.usage ⟨(boardSwitch o rows d).render, true⟩).defineAll
            (definitions o rows after) := by
  obtain ⟨before, after, he, hother⟩ := split_catalog h
  obtain ⟨hun, hut⟩ := usage_names h hu
  have hfree := names_free o rows (a := ⟨configured o, refused o rows⟩)
    (fun c hc => hother c (List.mem_append_left _ hc)) rfl rfl
  refine ⟨_, (Assembly.extends_defineAll ⟨configured o, refused o rows⟩
    (definitions o rows before)).filters, by rw [hun]; exact hfree.1, by rw [hut]; exact hfree.2,
    after, fun c hc => hother c (List.mem_append_right _ hc), ?_⟩
  rw [addDirectives_eq, he, definitions, List.map_append, List.map_cons, Assembly.defineAll_append]
  rfl

theorem checkUsage_boardSwitch {f : Formatter} (hf : f.filters = (configured o).filters)
    (h : d ∈ catalog) (hu : Usage.parse? d.usage = .ok u) (t : Template) :
    f.checkUsage u t = t.validate u := by
  rw [Formatter.checkUsage_congr hf, Formatter.checkUsage, missingFilter?_eq_none o h hu]

theorem validate_of_mem_templates (h : d ∈ catalog) (hu : Usage.parse? d.usage = .ok u) :
    ∀ t ∈ (boardSwitch o rows d).templates, (Template.mk t true).validate u = .ok () := fun t ht => by
  rw [← check_eq_validate o h hu]
  exact check_boardSwitch h ht

/-- A directive whose templates can stand in one text is registered with its tag. -/
theorem addDirectives_registers (h : d ∈ catalog) (hu : Usage.parse? d.usage = .ok u)
    (hm : Mergeable true (boardSwitch o rows d)) :
    (addDirectives (configured o) rows).formatter.bbcodes.get? u.name = some u ∧
      (addDirectives (configured o) rows).formatter.tags.get? u.tagName =
        some (boardSwitch o rows d).render := by
  obtain ⟨a, hf, hname, htag, after, -, he⟩ := addDirectives_split o rows h hu
  have hd : a.formatter.define d.usage ⟨(boardSwitch o rows d).render, true⟩ = .ok (u, _) :=
    Formatter.define_eq_ok_iff.2 ⟨Formatter.readUsage_eq_ok_iff.2 hu, hname, htag, by
      rw [checkUsage_boardSwitch hf h hu]
      exact validate_render (validate_of_mem_templates h hu) hm, rfl⟩
  rw [he, Assembly.define_of_ok hd]
  have hx := Assembly.extends_defineAll { a with
    formatter := a.formatter.register u ⟨(boardSwitch o rows d).render, true⟩ }
    (definitions o rows after)
  exact ⟨hx.bbcodes _ _ (by simp [Formatter.register]), hx.tags _ _ (by simp [Formatter.register])⟩

/-- Another directive is left out, and reported with the name that closes the wrong element. -/
theorem addDirectives_skips (h : d ∈ catalog) (hu : Usage.parse? d.usage = .ok u)
    (hm : ¬ Mergeable true (boardSwitch o rows d)) :
    (addDirectives (configured o) rows).formatter.bbcodes.contains u.name = false ∧
      (addDirectives (configured o) rows).formatter.tags.contains u.tagName = false ∧
      ∃ outer ∈ holders, ⟨d.usage, none, .malformedTemplate u.name
        (.mismatched (String.ofList outer) (String.ofList wrapper))⟩ ∈
          (addDirectives (configured o) rows).skipped := by
  obtain ⟨a, hf, hname, htag, after, hother, he⟩ := addDirectives_split o rows h hu
  obtain ⟨outer, ho, hv⟩ := validate_render_eq_error (validate_of_mem_templates h hu) hm
  have hd := Formatter.define_eq_error (Formatter.readUsage_eq_ok_iff.2 hu) hname htag
    ((checkUsage_boardSwitch hf h hu _).trans hv)
  obtain ⟨hun, hut⟩ := usage_names h hu
  rw [he, Assembly.define_of_error hd]
  rw [hun] at hname ⊢
  rw [hut] at htag ⊢
  obtain ⟨hname', htag'⟩ := names_free o rows (a := { a with
    skipped := a.skipped ++ [⟨d.usage, none, .malformedTemplate (nameOf d)
      (.mismatched (String.ofList outer) (String.ofList wrapper))⟩] }) hother hname htag
  refine ⟨hname', htag', outer, ho, ?_⟩
  exact (Assembly.extends_defineAll _ _).mem_skipped (by simp)

/-- A refused override is reported with the number of its style. -/
theorem refused_override (h : d ∈ catalog) {s : Source} (hs : s ∈ latest (rows.map StyleRow.toSource))
    {t : String} (ht : (({} : MarkerSyntax).fragments s.document).recompose.get? d.name = some t)
    (hactive : s.bitfield.isActive d.name = true) {e : DefinitionError}
    (he : boardCheck o d (boardNormalizer.normalize t) = .error e) :
    (boardSwitch o rows d).evaluate s.id = d.template ∧
      ⟨d.usage, some s.id, e⟩ ∈ (addDirectives (configured o) rows).skipped := by
  constructor
  · rw [evaluate_boardSwitch h hs, Source.shown, ht]
    simp only [he, Except.isOk, Except.toBool, Bool.false_eq_true, and_false, if_false]
    exact fallback_eq h
  · have hrejected : ⟨s.id, d, e⟩ ∈
        (resolve {} boardNormalizer (boardCheck o) (rows.map StyleRow.toSource)).2 :=
      mem_rejected_iff.2 ⟨h, s, hs, rfl, hactive, t, ht, he⟩
    rw [addDirectives_eq]
    exact (Assembly.extends_defineAll _ _).mem_skipped (List.mem_map.2 ⟨_, hrejected, rfl⟩)

end Directives

end BoardMarkup.Board
