import BoardMarkup.Proofs.Board.Publication
import BoardMarkup.Proofs.Formatter.Identity

/-! BBCodes and tags belong together, however a formatter was edited. -/
namespace BoardMarkup

open BBCode

inductive Edit where
  | define (usage : String) (t : Template)
  | check (usage : String) (t : Template)
  | remove (name : String)
  | addFilter (name : String) (filter : Filter)
  | removeFilter (name : String)
  | loadCensor
  | detachCensor

/-- A formatter, and all definitions that it ever accepted, the last one first. -/
structure History where
  formatter : Formatter := .new
  accepted : List (Usage × Template) := []

namespace History

/-- What an edit makes of a formatter. One that fails, or that only checks, leaves it as it is. -/
def step (h : History) : Edit → History
  | .define usage t =>
    match h.formatter.define usage t with
    | .ok (u, f) => ⟨f, (u, t) :: h.accepted⟩
    | .error _ => h
  | .check _ _ => h
  | .remove name =>
    match h.formatter.remove? name with
    | some (_, f) => { h with formatter := f }
    | none => h
  | .addFilter name filter =>
    { h with formatter := { h.formatter with filters := h.formatter.filters.insert name filter } }
  | .removeFilter name =>
    { h with formatter := { h.formatter with filters := h.formatter.filters.erase name } }
  | .loadCensor => { h with formatter := h.formatter.loadCensor Board.censorTag }
  | .detachCensor => { h with formatter := h.formatter.detachCensor.2 }

def run (edits : List Edit) : History := edits.foldl step {}

def last? (h : History) (name : String) : Option (Usage × Template) :=
  h.accepted.find? (·.1.name == name)

/-- What BBCodes, tags and the censor have to do with each other. -/
structure Consistent (h : History) : Prop where
  /-- A BBCode is registered under its own name. -/
  named : ∀ k u, h.formatter.bbcodes.get? k = some u → k = u.name
  /-- Its tag has the template of the definition. -/
  defined : ∀ k u, h.formatter.bbcodes.get? k = some u →
    ∃ t, h.last? k = some (u, t) ∧ h.formatter.tags.get? u.tagName = some t.source
  /-- No other BBCode has this tag. -/
  distinct : ∀ k l u v, h.formatter.bbcodes.get? k = some u → h.formatter.bbcodes.get? l = some v →
    u.tagName = v.tagName → k = l
  /-- There are no other tags than those of BBCodes and of the censor. -/
  owned : ∀ tag source, h.formatter.tags.get? tag = some source →
    (∃ k u, h.formatter.bbcodes.get? k = some u ∧ u.tagName = tag) ∨
      ∃ c, h.formatter.censor = some c ∧ c.tagName = tag
  /-- The censor has its tag, which no BBCode can have. -/
  censored : ∀ c, h.formatter.censor = some c → c.tagName = Board.censorTag ∧
    h.formatter.tags.get? Board.censorTag = some Censor.Plugin.tagTemplate
  reserved : ∀ k u, h.formatter.bbcodes.get? k = some u → u.tagName ≠ Board.censorTag

theorem last?_cons (f : Formatter) (u : Usage) (t : Template) (accepted : List (Usage × Template))
    (k : String) : (History.mk f ((u, t) :: accepted)).last? k =
      if k = u.name then some (u, t) else (History.mk f accepted).last? k := by
  unfold last?
  rw [List.find?_cons]
  by_cases hk : k = u.name
  · simp [hk]
  · simp [hk, beq_eq_false_iff_ne.2 (Ne.symm hk)]

inductive Takes (h : History) : Edit → History → Prop
  | same (x : Edit) : Takes h x h
  | define {usage : String} {t : Template} {u : Usage} (read : Formatter.readUsage usage = .ok u)
      (name : h.formatter.bbcodes.get? u.name = none) (tag : h.formatter.tags.get? u.tagName = none)
      (check : h.formatter.checkUsage u t = .ok ()) :
      Takes h (.define usage t) ⟨h.formatter.register u t, (u, t) :: h.accepted⟩
  | remove {name : String} {u : Usage} (found : h.formatter.bbcode? name = some u) :
      Takes h (.remove name) { h with formatter := { h.formatter with
        bbcodes := h.formatter.bbcodes.erase (upper name), tags := h.formatter.tags.erase u.tagName } }
  | addFilter (name : String) (filter : Filter) : Takes h (.addFilter name filter)
      { h with formatter := { h.formatter with filters := h.formatter.filters.insert name filter } }
  | removeFilter (name : String) : Takes h (.removeFilter name)
      { h with formatter := { h.formatter with filters := h.formatter.filters.erase name } }
  | loadCensor : Takes h .loadCensor { h with formatter := h.formatter.loadCensor Board.censorTag }
  | detachCensor : Takes h .detachCensor { h with formatter := h.formatter.detachCensor.2 }

theorem takes_step (h : History) (x : Edit) : Takes h x (h.step x) := by
  cases x with
  | define usage t =>
    cases hd : h.formatter.define usage t with
    | error e =>
      simp only [step, hd]
      exact .same _
    | ok found =>
      obtain ⟨u, f⟩ := found
      simp only [step, hd]
      obtain ⟨hu, hname, htag, hcheck, rfl⟩ := Formatter.define_eq_ok_iff.1 hd
      exact .define hu (Table.get?_eq_none_iff.2 hname) (Table.get?_eq_none_iff.2 htag) hcheck
  | check usage t => exact .same _
  | remove name =>
    cases hr : h.formatter.remove? name with
    | none =>
      simp only [step, hr]
      exact .same _
    | some found =>
      simp only [step, hr]
      obtain ⟨u, hu, rfl⟩ := Option.map_eq_some_iff.1 hr
      exact .remove hu
  | addFilter name filter => exact .addFilter name filter
  | removeFilter name => exact .removeFilter name
  | loadCensor => exact .loadCensor
  | detachCensor => exact .detachCensor

section Invariant

variable {f : Formatter} {accepted : List (Usage × Template)} {u : Usage} {t : Template}

theorem Consistent.register (h : Consistent ⟨f, accepted⟩) (hname : f.bbcodes.get? u.name = none)
    (htag : f.tags.get? u.tagName = none) (hcensor : u.tagName ≠ Board.censorTag) :
    Consistent ⟨f.register u t, (u, t) :: accepted⟩ := by
  -- every BBCode that is there has a tag already, so the new tag is none of theirs
  have hothers : ∀ k v, f.bbcodes.get? k = some v → v.tagName ≠ u.tagName := by
    intro k v hv he
    obtain ⟨s, -, hs⟩ := h.defined k v hv
    rw [he, htag] at hs
    cases hs
  have hcases : ∀ k v, (f.register u t).bbcodes.get? k = some v →
      k = u.name ∧ v = u ∨ k ≠ u.name ∧ f.bbcodes.get? k = some v := by
    intro k v hv
    rcases Table.get?_insert_eq_some_iff.1 hv with ⟨hk, hu⟩ | hv
    · exact .inl ⟨hk, hu.symm⟩
    · exact .inr hv
  have htags : ∀ tag, (f.register u t).tags.get? tag =
      if tag = u.tagName then some t.source else f.tags.get? tag :=
    Table.get?_insert f.tags u.tagName (v := t.source)
  constructor
  case named =>
    intro k v hv
    rcases hcases k v hv with ⟨hk, rfl⟩ | ⟨-, hv⟩
    · exact hk
    · exact h.named k v hv
  case defined =>
    intro k v hv
    rw [last?_cons, htags]
    rcases hcases k v hv with ⟨hk, rfl⟩ | ⟨hk, hv⟩
    · rw [if_pos hk, if_pos rfl]
      exact ⟨t, rfl, rfl⟩
    · rw [if_neg hk, if_neg (hothers k v hv)]
      exact h.defined k v hv
  case distinct =>
    intro k l v w hv hw he
    rcases hcases k v hv with ⟨hk, hvu⟩ | ⟨-, hv⟩ <;> rcases hcases l w hw with ⟨hl, hwu⟩ | ⟨-, hw⟩
    · rw [hk, hl]
    · exact absurd (he.symm.trans (by rw [hvu])) (hothers l w hw)
    · exact absurd (he.trans (by rw [hwu])) (hothers k v hv)
    · exact h.distinct k l v w hv hw he
  case owned =>
    intro tag s hs
    rw [htags] at hs
    split at hs
    · next he =>
      have hself : (f.register u t).bbcodes.get? u.name = some u := by simp [Formatter.register]
      exact .inl ⟨u.name, u, hself, he.symm⟩
    · rcases h.owned tag s hs with ⟨k, v, hv, he⟩ | hc
      · have hk : k ≠ u.name := by
          rintro rfl
          rw [hname] at hv
          cases hv
        exact .inl ⟨k, v, by simp [Formatter.register, hk, hv], he⟩
      · exact .inr hc
  case censored =>
    intro c hc
    rw [htags, if_neg hcensor.symm]
    exact h.censored c hc
  case reserved =>
    intro k v hv
    rcases hcases k v hv with ⟨-, rfl⟩ | ⟨-, hv⟩
    · exact hcensor
    · exact h.reserved k v hv

theorem Consistent.remove (h : Consistent ⟨f, accepted⟩) {key : String}
    (hu : f.bbcodes.get? key = some u) : Consistent
      ⟨{ f with bbcodes := f.bbcodes.erase key, tags := f.tags.erase u.tagName }, accepted⟩ := by
  -- what is left has other names, and so other tags, than what went
  have hcases : ∀ k v, (f.bbcodes.erase key).get? k = some v → k ≠ key ∧ f.bbcodes.get? k = some v :=
    fun _ _ => Table.get?_erase_eq_some_iff.1
  constructor
  case named =>
    intro k v hv
    exact h.named k v (hcases k v hv).2
  case defined =>
    intro k v hv
    obtain ⟨hk, hv⟩ := hcases k v hv
    have hne : v.tagName ≠ u.tagName := fun he => hk (h.distinct k key v u hv hu he)
    rw [Table.get?_erase, if_neg hne]
    exact h.defined k v hv
  case distinct =>
    intro k l v w hv hw
    exact h.distinct k l v w (hcases k v hv).2 (hcases l w hw).2
  case owned =>
    intro tag s hs
    rw [Table.get?_erase] at hs
    split at hs
    · cases hs
    · next hne =>
      rcases h.owned tag s hs with ⟨k, v, hv, he⟩ | hc
      · have hk : k ≠ key := by
          rintro rfl
          rw [hu] at hv
          cases hv
          exact hne he.symm
        exact .inl ⟨k, v, by rw [Table.get?_erase, if_neg hk, hv], he⟩
      · exact .inr hc
  case censored =>
    intro c hc
    rw [Table.get?_erase, if_neg (h.reserved key u hu).symm]
    exact h.censored c hc
  case reserved =>
    intro k v hv
    exact h.reserved k v (hcases k v hv).2

theorem Consistent.loadCensor (h : Consistent ⟨f, accepted⟩) :
    Consistent ⟨f.loadCensor Board.censorTag, accepted⟩ := by
  have htags : ∀ tag, (f.loadCensor Board.censorTag).tags.get? tag =
      if tag = Board.censorTag then some Censor.Plugin.tagTemplate else f.tags.get? tag :=
    Table.get?_insert f.tags Board.censorTag (v := Censor.Plugin.tagTemplate)
  constructor
  case named => exact h.named
  case defined =>
    intro k v hv
    rw [htags, if_neg (h.reserved k v hv)]
    exact h.defined k v hv
  case distinct => exact h.distinct
  case owned =>
    intro tag s hs
    rw [htags] at hs
    split at hs
    · next he => exact .inr ⟨_, rfl, he.symm⟩
    · next hne =>
      rcases h.owned tag s hs with hb | ⟨c, hc, he⟩
      · exact .inl hb
      · exact absurd (he.symm.trans (h.censored c hc).1) hne
  case censored =>
    intro c hc
    cases hc
    rw [htags, if_pos rfl]
    exact ⟨rfl, rfl⟩
  case reserved => exact h.reserved

theorem Consistent.detachCensor (h : Consistent ⟨f, accepted⟩) :
    Consistent ⟨f.detachCensor.2, accepted⟩ := by
  unfold Formatter.detachCensor
  split
  · exact h
  · next c hc =>
    have htag := (h.censored c hc).1
    constructor
    case named => exact h.named
    case defined =>
      intro k v hv
      rw [Table.get?_erase, if_neg (htag ▸ h.reserved k v hv)]
      exact h.defined k v hv
    case distinct => exact h.distinct
    case owned =>
      intro tag s hs
      rw [Table.get?_erase] at hs
      split at hs
      · cases hs
      · next hne =>
        rcases h.owned tag s hs with hb | ⟨d, hd, he⟩
        · exact .inl hb
        · rw [hc] at hd
          cases hd
          exact absurd he.symm hne
    case censored => nofun
    case reserved => exact h.reserved

/-- An edit, whether it succeeds or not, keeps BBCodes and tags together. -/
theorem Consistent.step {h : History} (hc : Consistent h) (x : Edit) : Consistent (h.step x) := by
  have ht := takes_step h x
  generalize h.step x = next at ht ⊢
  cases ht with
  | same => exact hc
  | define read name tag _ =>
    exact hc.register name tag (Board.tagName_ne_censorTag read)
  | remove found => exact hc.remove found
  | addFilter => exact ⟨hc.named, hc.defined, hc.distinct, hc.owned, hc.censored, hc.reserved⟩
  | removeFilter => exact ⟨hc.named, hc.defined, hc.distinct, hc.owned, hc.censored, hc.reserved⟩
  | loadCensor => exact hc.loadCensor
  | detachCensor => exact hc.detachCensor

private theorem consistent_new : Consistent {} := ⟨nofun, nofun, nofun, nofun, nofun, nofun⟩

/-- What a new formatter has and no edit takes away, every edited formatter has. -/
theorem run_induction {motive : History → Prop} (new : motive {}) (edits : List Edit)
    (step : ∀ h, ∀ x ∈ edits, motive h → motive (h.step x)) : motive (run edits) := by
  -- the induction is on the edits, for any start with the property
  have hfrom : ∀ h, motive h → motive (edits.foldl History.step h) := by
    induction edits with
    | nil => exact fun h hm => hm
    | cons x edits ih =>
      exact fun h hm => ih (fun h y hy => step h y (.tail _ hy)) _ (step h x (by simp) hm)
  exact hfrom {} new

theorem consistent_run (edits : List Edit) : Consistent (run edits) :=
  run_induction consistent_new edits fun _ x _ hc => hc.step x

end Invariant

end History

namespace Formatter

variable {f g : Formatter} {usage name : String} {t : Template} {u : Usage}

private theorem upper_name (h : readUsage usage = .ok u) : upper u.name = u.name := by
  obtain ⟨name, -, hname, -⟩ := parse?_spec (readUsage_eq_ok_iff.1 h)
  have hidle : Char.toUpper ∘ Char.toUpper = Char.toUpper := funext toUpper_toUpper
  rw [hname, upper_ofList, List.map_map, hidle]

/-- A BBCode that is removed under its name, in any case, leaves nothing behind. -/
theorem remove?_of_define (h : f.define usage t = .ok (u, g)) (hname : upper name = upper u.name) :
    g.remove? name = some (u, f) := by
  obtain ⟨hu, hfree, hfreeTag, -, rfl⟩ := define_eq_ok_iff.1 h
  have hkey : upper name = u.name := hname.trans (upper_name hu)
  have hget : (f.register u t).bbcode? name = some u := by
    rw [bbcode?, hkey, register, Table.get?_insert, if_pos rfl]
  rw [remove?, hget, hkey, Option.map_some, register]
  simp only [Table.erase_insert hfree, Table.erase_insert hfreeTag]

theorem snapshot_of_artifacts {a : Artifacts} (h : f.artifacts = .ok a) :
    f.snapshot = .ok a.renderer.snapshot := by
  unfold artifacts at h
  split at h
  · cases h
  · split at h
    · cases h
    · cases hfilters : f.checkFilters with
      | error e =>
        rw [hfilters] at h
        cases h
      | ok _ =>
        cases hsnapshot : f.snapshot with
        | error e =>
          rw [hfilters, hsnapshot] at h
          cases h
        | ok snapshot =>
          rw [hfilters, hsnapshot] at h
          cases h
          rfl

/-- Templates that are all accepted are normalized, each under the name of its tag. -/
theorem templates_eq {es ts : List (String × String)} (h : f.templates es = .ok ts) :
    ts = es.map fun e => (e.1, f.normalizer.normalize e.2) := by
  induction es generalizing ts with
  | nil =>
    cases h
    rfl
  | cons e es ih =>
    obtain ⟨tag, source⟩ := e
    unfold templates at h
    simp only at h
    split at h
    · cases h
    · cases hrest : f.templates es with
      | error e =>
        rw [hrest] at h
        cases h
      | ok rest =>
        rw [hrest] at h
        cases h
        rw [ih hrest, List.map_cons]

private theorem template_of_snapshot {s : Snapshot} (h : f.snapshot = .ok s) {tag source : String}
    (ht : f.tags.get? tag = some source) :
    s.templates.get? tag = some (f.normalizer.normalize source) := by
  unfold snapshot at h
  cases hts : f.templates f.tags.entries with
  | error e =>
    rw [hts] at h
    cases h
  | ok ts =>
    rw [hts] at h
    cases h
    have hkeys : (f.tags.entries.map fun e => (e.1, f.normalizer.normalize e.2)).Pairwise (·.1 ≠ ·.1) :=
      List.pairwise_map.2 f.tags.entries_distinct
    rw [templates_eq hts, Table.get?_ofList_eq_some_iff hkeys, List.mem_map]
    exact ⟨(tag, source), Table.get?_eq_some_iff.1 ht, rfl⟩

end Formatter
namespace History

/-- The renderer of a consistent formatter has the template of every BBCode that its parser knows. -/
theorem Consistent.template_of_compile {h : History} (hc : Consistent h) {f : Formatter} {d e : Disk}
    {a : Artifacts} (hbbcodes : f.bbcodes = h.formatter.bbcodes) (htags : f.tags = h.formatter.tags)
    (hcompile : f.compile d = (.ok a, e)) {b : ParserBBCode} (hb : b ∈ a.parser.bbcodes) :
    ∃ u t, h.last? b.name = some (u, t) ∧ u.tagName = b.tagName ∧
      a.renderer.snapshot.templates.get? b.tagName = some (f.normalizer.normalize t.source) := by
  obtain ⟨hartifacts, -⟩ := Formatter.of_compile hcompile
  obtain ⟨-, dir, -, hcompiled⟩ := Formatter.compiled_of_artifacts hartifacts
  rw [hcompiled.parser] at hb
  obtain ⟨u, hu, rfl⟩ := List.mem_map.1 hb
  obtain ⟨⟨k, v⟩, hentry, rfl⟩ := List.mem_map.1 hu
  have hget : h.formatter.bbcodes.get? k = some v := by
    rw [← hbbcodes]
    exact Table.get?_eq_some_iff.2 hentry
  obtain ⟨t, hlast, htag⟩ := hc.defined k v hget
  rw [hc.named k v hget] at hlast
  have hsnapshot := Formatter.snapshot_of_artifacts hartifacts
  exact ⟨v, t, hlast, rfl, Formatter.template_of_snapshot hsnapshot (htags ▸ htag)⟩

/--
However a new formatter is edited, its BBCodes have different tags with the templates of their
definitions, and all other tags are the censor's. A definition that is refused changes nothing, one
that is accepted is undone when the BBCode is removed, and each BBCode is compiled with its template.
-/
theorem edited_registry (edits : List Edit) :
    Consistent (run edits) ∧
    (∀ usage t e, (run edits).formatter.define usage t = .error e →
      run (edits ++ [.define usage t]) = run edits) ∧
    (∀ usage t u f name, (run edits).formatter.define usage t = .ok (u, f) →
      upper name = upper u.name → f.remove? name = some (u, (run edits).formatter)) ∧
    ∀ (f : Formatter) (d e : Disk) (a : Artifacts), f.bbcodes = (run edits).formatter.bbcodes →
      f.tags = (run edits).formatter.tags → f.compile d = (.ok a, e) →
      ∀ b ∈ a.parser.bbcodes, ∃ u t, (run edits).last? b.name = some (u, t) ∧ u.tagName = b.tagName ∧
        a.renderer.snapshot.templates.get? b.tagName = some (f.normalizer.normalize t.source) := by
  have hc := consistent_run edits
  refine ⟨hc, fun usage t e hd => ?_, fun usage t u f name hd hname => ?_, fun f d e a hb ht h b hm => ?_⟩
  · rw [run, List.foldl_append, ← run, List.foldl_cons, List.foldl_nil, step, hd]
  · exact Formatter.remove?_of_define hd hname
  · exact hc.template_of_compile hb ht h hm

/-- A BBCode that asks for the tag of another one is refused. -/
example : (run [.define "[b]{TEXT}[/b]" ⟨"<b><xsl:apply-templates/></b>", true⟩, .loadCensor,
    .define "[x $tagName=b]{TEXT}[/x]" ⟨"<i/>", true⟩]).formatter.tags.keys = ["B", "censor:tag"] := by
  decide

end History
end BoardMarkup
