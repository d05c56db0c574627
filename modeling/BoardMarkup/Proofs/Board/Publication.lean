import BoardMarkup.Board.Publish
import BoardMarkup.Proofs.Board.Plain
import BoardMarkup.Proofs.Formatter.Compilation

/-! When a board is published: what its registered definitions become once they are compiled. -/
namespace BoardMarkup.Board

open BBCode Markup Style Text

/-- The assembly with all BBCodes, before smilies, words and links are added. -/
def registered (o : Options) (styles : List StyleRow) (bbcodes : List BBCodeRow) : Assembly :=
  (directiveAssembly o styles).defineAll (customDefinitions o bbcodes)

section Registered

variable {o : Options} {styles : List StyleRow} {bbcodes : List BBCodeRow}
  {smilies : List SmileyRow} {words : List WordRow}

theorem furnished_eq : furnished o styles bbcodes smilies words =
    (registered o styles bbcodes).finished smilies words := rfl

private theorem addViewSwitches_settings (f : Formatter) : f.SameSettings (addViewSwitches f) :=
  ⟨_, _, rfl⟩

private theorem Assembly.withViewSwitches_settings (a : Assembly) :
    a.formatter.SameSettings a.withViewSwitches.formatter :=
  addViewSwitches_settings a.formatter

theorem Assembly.filtersPresent_withViewSwitches {a : Assembly} (h : a.FiltersPresent) :
    a.withViewSwitches.FiltersPresent := fun k u hu => h k u hu

theorem directiveAssembly_settings :
    (configured o).SameSettings (directiveAssembly o styles).formatter := by
  have hd : (configured o).SameSettings (addDirectives (configured o) styles).formatter := by
    rw [addDirectives_eq]
    exact (Assembly.extends_defineAll ⟨configured o, refused o styles⟩ _).settings
  exact hd.trans (Assembly.withViewSwitches_settings _)

theorem registered_settings :
    (configured o).SameSettings (registered o styles bbcodes).formatter :=
  directiveAssembly_settings.trans (Assembly.extends_defineAll _ _).settings

theorem filtersPresent_registered : (registered o styles bbcodes).FiltersPresent := by
  refine Assembly.filtersPresent_defineAll ?_
  unfold directiveAssembly
  refine Assembly.filtersPresent_withViewSwitches ?_
  rw [addDirectives_eq]
  exact Assembly.filtersPresent_defineAll fun k u hu => by cases hu

theorem tagName_ne_censorTag {usage : String} {u : Usage} (h : Formatter.readUsage usage = .ok u) :
    u.tagName ≠ censorTag := by
  obtain ⟨name, -, -, htag, -⟩ := parse?_spec (Formatter.readUsage_eq_ok_iff.1 h)
  intro he
  rw [htag] at he
  have hm : 'c' ∈ ((tagNameOf name (bodyOf usage)).map Char.toUpper) := by
    rw [← String.toList_ofList (l := List.map _ _), he]
    decide
  obtain ⟨c, -, hc⟩ := List.mem_map.1 hm
  have hupper := toUpper_not_lower c
  rw [hc] at hupper
  exact hupper (by decide)

/-- No BBCode takes the tag of censored words, whose name is in lower case. -/
theorem Assembly.contains_censorTag_defineAll {a : Assembly} (ds : List (String × Template))
    (h : a.formatter.tags.contains censorTag = false) :
    (a.defineAll ds).formatter.tags.contains censorTag = false := by
  refine Bool.eq_false_iff.2 fun hc => ?_
  rcases Assembly.contains_tag_defineAll hc with hc | ⟨d, -, u, hu, he⟩
  · rw [h] at hc
    cases hc
  · exact tagName_ne_censorTag hu he

theorem contains_censorTag_registered :
    (registered o styles bbcodes).formatter.tags.contains censorTag = false := by
  refine Assembly.contains_censorTag_defineAll _ ?_
  rw [Table.contains_eq_isSome, get?_tags_directiveAssembly, Option.isSome_map,
    ← Table.contains_eq_isSome, addDirectives_eq]
  exact Assembly.contains_censorTag_defineAll _ rfl

end Registered

/-- What is compiled of a board does not depend on its words. -/
theorem detachCensor_finish_eq {f : Formatter} (hc : f.censor = none)
    (ht : f.tags.contains censorTag = false) (smilies : List SmileyRow) (words : List WordRow) :
    (finish f smilies words).detachCensor = (censorOf words, addLinks (addSmilies f smilies)) := by
  obtain ⟨emoticons, he⟩ := addSmilies_frame f smilies
  have hwords : (addWords (addSmilies f smilies) words).detachCensor =
      (censorOf words, addSmilies f smilies) := by
    rw [he]
    exact detachCensor_addWords (f := { f with emoticons }) hc ht words
  rw [finish, detachCensor_addLinks, hwords]

/-- A formatter without its censor is what it was before words were added, but for smilies and links. -/
theorem detachCensor_finish {f : Formatter} (hc : f.censor = none)
    (ht : f.tags.contains censorTag = false) (smilies : List SmileyRow) (words : List WordRow) :
    ∃ emoticons autoemail autolink registeredVars, (finish f smilies words).detachCensor.2 =
      { f with emoticons, autoemail, autolink, registeredVars } := by
  obtain ⟨emoticons, he⟩ := addSmilies_frame f smilies
  rw [detachCensor_finish_eq hc ht, he]
  exact ⟨emoticons, _, _, _, rfl⟩

def published (o : Options) (a : Artifacts) (censor : Option Censor.WordList) (disk : Disk)
    (s : Store) : Store :=
  ({ s with disk }.putJson o.parserKey a.parser.toJson).putJson o.rendererKey
    (RendererRecord.toJson ⟨a.renderer.className, o.classPrefix, censor⟩)

theorem board_settings {o : Options} {f : Formatter} (h : (configured o).SameSettings f) :
    f.rendering.cacheDir = some o.cacheDir ∧ f.rendering.classPrefix = o.classPrefix ∧
      f.normalizer = boardNormalizer ∧ f.censor = none := by
  obtain ⟨_, _, rfl⟩ := h
  exact ⟨rfl, rfl, rfl, rfl⟩

/-- A finished formatter is published, or names a template that is refused and leaves the store alone. -/
theorem publish_cases {o : Options} {s : Store} {f : Formatter} (hs : (configured o).SameSettings f)
    (hf : ∀ k u, f.bbcodes.get? k = some u → f.missingFilter? u = none)
    (ht : f.tags.contains censorTag = false) (hp : o.classPrefix ≠ "")
    (hd : s.disk.Hosts o.cacheDir o.classPrefix) (smilies : List SmileyRow) (words : List WordRow) :
    (∃ a e, publish Formatter.compile o (finish f smilies words) s =
        (.ok a, published o a (finish f smilies words).detachCensor.1 e s) ∧
      (finish f smilies words).detachCensor.2.Compiled o.cacheDir a ∧
      (s.disk.prepared o.cacheDir).SameShape e ∧
      e.read? a.renderer.file = some (a.renderer.snapshot.fileText a.renderer.className).toUTF8 ∧
      ∀ k t, f.tags.get? k = some t → check false (boardNormalizer.normalize t) = .ok ()) ∨
    ∃ k t p, f.tags.get? k = some t ∧ check false (boardNormalizer.normalize t) = .error p ∧
      publish Formatter.compile o (finish f smilies words) s =
        (.error (.compile (.malformedTemplate k p)), s) := by
  obtain ⟨hdir, hclass, hnormalizer, hcensor⟩ := board_settings hs
  obtain ⟨emoticons, autoemail, autolink, registeredVars, hdetached⟩ :=
    detachCensor_finish hcensor ht smilies words
  generalize hg : (finish f smilies words).detachCensor = detached at hdetached ⊢
  obtain ⟨censor, g⟩ := detached
  subst hdetached
  rw [← hclass] at hd hp
  rcases Formatter.compile_cases (f := { f with emoticons, autoemail, autolink, registeredVars })
    hdir hp hf hd with ⟨a, e, ha, hcompiled, hshape, hread, hall⟩ | ⟨k, t, p, hkt, hcheck, herror⟩
  · left
    refine ⟨a, e, ?_, hcompiled, hshape, hread, fun k t hkt => ?_⟩
    · simp only [publish, hg, ha, published, hclass]
    · rw [← hnormalizer]
      exact hall k t hkt
  · right
    refine ⟨k, t, p, hkt, hnormalizer ▸ hcheck, ?_⟩
    simp only [publish, hg, herror]

/-- A regeneration reads the data, and then fails only for a template. -/
theorem regenerate_ofRows (o : Options) (s : Store) (styles : List StyleRow)
    (bbcodes : List BBCodeRow) (smilies : List SmileyRow) (words : List WordRow) :
    regenerate Formatter.compile o (.ofRows styles bbcodes smilies words) s =
      publish Formatter.compile o (finish (registered o styles bbcodes).formatter smilies words) s := by
  rw [regenerate_eq, furnish_ofRows]
  rfl

section Registered

variable {o : Options} {styles : List StyleRow} {bbcodes : List BBCodeRow}
  {smilies : List SmileyRow} {words : List WordRow}

theorem get?_tags_finished_registered {k t : String} (hk : k ≠ censorTag) :
    (furnished o styles bbcodes smilies words).formatter.tags.get? k = some t ↔
      (registered o styles bbcodes).formatter.tags.get? k = some t := by
  rw [furnished_eq, Assembly.get?_tags_finished _ _ _ hk]

theorem ne_censorTag_of_registered {k t : String}
    (h : (registered o styles bbcodes).formatter.tags.get? k = some t) : k ≠ censorTag := by
  rintro rfl
  have hc : (registered o styles bbcodes).formatter.tags.contains censorTag = false :=
    contains_censorTag_registered
  rw [Table.contains_eq_isSome, h] at hc
  cases hc

/-- Each BBCode of a board is registered with its template, or reported. -/
theorem registers_or_reports {r : BBCodeRow} (hr : r ∈ bbcodes) :
    (∃ u, Usage.parse? r.usage = .ok u ∧
      (furnished o styles bbcodes smilies words).formatter.bbcodes.get? u.name = some u ∧
      (furnished o styles bbcodes smilies words).formatter.tags.get? u.tagName =
        some (prefixLocalUrls o.boardUrl r.template)) ∨
    ∃ e, ⟨r.usage, none, e⟩ ∈ (furnished o styles bbcodes smilies words).skipped := by
  have hd : (r.usage, Template.mk (prefixLocalUrls o.boardUrl r.template) false) ∈
      customDefinitions o bbcodes := List.mem_map.2 ⟨r, hr, rfl⟩
  rw [furnished_eq, Assembly.bbcodes_finished, Assembly.skipped_finished]
  refine (Assembly.defineAll_registers_or_reports (a := directiveAssembly o styles) hd).imp_left ?_
  rintro ⟨u, hu, hname, htag⟩
  refine ⟨u, Formatter.readUsage_eq_ok_iff.1 hu, hname, ?_⟩
  rw [Assembly.get?_tags_finished _ _ _ (tagName_ne_censorTag hu)]
  exact htag

/-- A tag has the template of a directive, or one of the board's own. -/
theorem source_of_registered {k t : String}
    (h : (registered o styles bbcodes).formatter.tags.get? k = some t) :
    (∃ d ∈ catalog, t = shownTemplate k (boardSwitch o styles d).render) ∨
      ∃ r ∈ bbcodes, t = prefixLocalUrls o.boardUrl r.template := by
  rcases Assembly.get?_tags_defineAll h with h | ⟨e, he, -, ht⟩
  · rw [get?_tags_directiveAssembly, Option.map_eq_some_iff] at h
    obtain ⟨source, hs, rfl⟩ := h
    rw [addDirectives_eq] at hs
    rcases Assembly.get?_tags_defineAll hs with hs | ⟨e, he, -, rfl⟩
    · cases hs
    · obtain ⟨d, hd, rfl⟩ := List.mem_map.1 he
      exact .inl ⟨d, hd, rfl⟩
  · obtain ⟨r, hr, rfl⟩ := List.mem_map.1 he
    exact .inr ⟨r, hr, ht.symm⟩

/-- Steady templates of the styles and plain ones of the board's own BBCodes are accepted once compiled. -/
theorem check_normalize_registered (hs : ∀ s ∈ latest (styles.map StyleRow.toSource), ∀ d ∈ catalog,
      Steady (s.shown {} boardNormalizer (boardCheck o) d))
    (hb : ∀ r ∈ bbcodes, Plain (prefixLocalUrls o.boardUrl r.template)) {k t : String}
    (h : (registered o styles bbcodes).formatter.tags.get? k = some t) :
    check false (boardNormalizer.normalize t) = .ok () := by
  rcases source_of_registered h with ⟨d, hd, rfl⟩ | ⟨r, hr, rfl⟩
  · exact (steady_boardSwitch hd fun s hm => hs s hm d hd).check_normalize_shownTemplate k
  · exact (hb r hr).check_normalize

end Registered

/-- A board with such templates is published, whatever its smilies and words are. -/
theorem regenerate_plain {o : Options} {s : Store} (styles : List StyleRow) (bbcodes : List BBCodeRow)
    (smilies : List SmileyRow) (words : List WordRow)
    (hs : ∀ s ∈ latest (styles.map StyleRow.toSource), ∀ d ∈ catalog,
      Steady (s.shown {} boardNormalizer (boardCheck o) d))
    (hb : ∀ r ∈ bbcodes, Plain (prefixLocalUrls o.boardUrl r.template)) (hp : o.classPrefix ≠ "")
    (hd : s.disk.Hosts o.cacheDir o.classPrefix) :
    ∃ a, (regenerate Formatter.compile o (.ofRows styles bbcodes smilies words) s).1 = .ok a := by
  rw [regenerate_ofRows]
  rcases publish_cases registered_settings filtersPresent_registered contains_censorTag_registered hp hd
    smilies words with ⟨a, e, ha, -⟩ | ⟨k, t, p, hkt, hcheck, -⟩
  · exact ⟨a, by rw [ha]⟩
  · rw [check_normalize_registered hs hb hkt] at hcheck
    cases hcheck

/--
Every BBCode of a board is registered or reported. The board is then published just when each
registered template is still accepted once it is normalized; otherwise nothing changes, and the
error names such a template. A plain one is always accepted.
-/
theorem regenerate_publishes_iff (o : Options) (styles : List StyleRow) (bbcodes : List BBCodeRow)
    (smilies : List SmileyRow) (words : List WordRow) (s : Store) (hp : o.classPrefix ≠ "")
    (hd : s.disk.Hosts o.cacheDir o.classPrefix) :
    ∃ a, furnish o (.ofRows styles bbcodes smilies words) .new = .ok a ∧
      (∀ r ∈ bbcodes, (∃ u, Usage.parse? r.usage = .ok u ∧
          a.formatter.bbcodes.get? u.name = some u ∧
          a.formatter.tags.get? u.tagName = some (prefixLocalUrls o.boardUrl r.template)) ∨
        ∃ e, ⟨r.usage, none, e⟩ ∈ a.skipped) ∧
      ((∃ artifacts, (regenerate Formatter.compile o (.ofRows styles bbcodes smilies words) s).1 =
          .ok artifacts) ↔
        ∀ k t, k ≠ censorTag → a.formatter.tags.get? k = some t →
          check false (boardNormalizer.normalize t) = .ok ()) ∧
      (∀ e, (regenerate Formatter.compile o (.ofRows styles bbcodes smilies words) s).1 = .error e →
        (regenerate Formatter.compile o (.ofRows styles bbcodes smilies words) s).2 = s ∧
        ∃ k t p, e = .compile (.malformedTemplate k p) ∧ a.formatter.tags.get? k = some t ∧
          check false (boardNormalizer.normalize t) = .error p) ∧
      ∀ k t, a.formatter.tags.get? k = some t → Plain t →
        check false (boardNormalizer.normalize t) = .ok () := by
  refine ⟨_, furnish_ofRows o styles bbcodes smilies words, fun r => registers_or_reports, ?_⟩
  have hself : ∀ k t, (furnished o styles bbcodes smilies words).formatter.tags.get? k = some t →
      Plain t → check false (boardNormalizer.normalize t) = .ok () := fun k t _ h => h.check_normalize
  rw [regenerate_ofRows]
  rcases publish_cases (s := s) registered_settings filtersPresent_registered
    contains_censorTag_registered hp hd smilies words with
    ⟨a, e, ha, -, -, -, hall⟩ | ⟨k, t, p, hkt, hcheck, herror⟩
  · rw [ha]
    refine ⟨⟨fun _ k t hk ht => hall k t ((get?_tags_finished_registered hk).1 ht), fun _ => ⟨a, rfl⟩⟩,
      fun e h => ?_, hself⟩
    cases h
  · have hk := ne_censorTag_of_registered hkt
    have ht : (furnished o styles bbcodes smilies words).formatter.tags.get? k = some t :=
      (get?_tags_finished_registered hk).2 hkt
    rw [herror]
    refine ⟨⟨fun ⟨_, h⟩ => ?_, fun h => ?_⟩, fun e h => ?_, hself⟩
    · cases h
    · rw [h k t hk ht] at hcheck
      cases hcheck
    · cases h
      exact ⟨rfl, k, t, p, rfl, ht, hcheck⟩

def exampleOptions : Options :=
  ⟨"/cache", "parser", "renderer", "Renderer_", "http://localhost", "images/smilies"⟩

theorem holder_cache : Path.holder "/cache" = "/cache" := by
  decide

theorem makeDirectory_example :
    ({} : Disk).makeDirectory (Path.holder "/cache") = (⟨[(["cache"], .directory)], []⟩, true) := by
  rw [holder_cache]
  decide +kernel

theorem prepared_example : ({} : Disk).prepared "/cache" = ⟨[(["cache"], .directory)], []⟩ := by
  rw [Disk.prepared, makeDirectory_example]

theorem hosts_example : ({} : Disk).Hosts "/cache" "Renderer_" :=
  Disk.hosts_of_makeDirectory (by decide) (by decide) (by decide) makeDirectory_example (by decide)
    (l := ["cache"]) (by decide) fun n => by simp [Disk.isDirectory, Disk.node?]

def strongStyle : StyleRow :=
  ⟨1, "<!-- BEGIN b --><strong><xsl:apply-templates/></strong><!-- END b -->", "QA=="⟩

def emphasisRow : BBCodeRow := ⟨"[x]{TEXT}[/x]", "<em>{TEXT}</em>"⟩

/-- A board with a style, a BBCode of its own, a smiley and a censored word. -/
def exampleBoard : Data :=
  .ofRows [strongStyle] [emphasisRow] [⟨":)", "smile.gif", "Smile"⟩] [⟨"darn", "****"⟩]

theorem recompose_strongStyle :
    (({} : MarkerSyntax).fragments strongStyle.toSource.document).recompose.get? bold.name =
      some "<strong><xsl:apply-templates/></strong>" := by
  refine get?_recompose_of_get? bold_mem rfl ?_
  change (({} : MarkerSyntax).fragments
    "<!-- BEGIN b --><strong><xsl:apply-templates/></strong><!-- END b -->").get? "b" = _
  decide +kernel

theorem steady_strong : Steady "<strong><xsl:apply-templates/></strong>" := by
  have hs : "<strong><xsl:apply-templates/></strong>".toList = ['<', 's', 't', 'r', 'o', 'n', 'g', '>',
      '<', 'x', 's', 'l', ':', 'a', 'p', 'p', 'l', 'y', '-', 't', 'e', 'm', 'p', 'l', 'a', 't', 'e', 's',
      '/', '>', '<', '/', 's', 't', 'r', 'o', 'n', 'g', '>'] := String.toList_ofList
  constructor <;> rw [hs] <;> decide

private theorem eq_bold_of_active {d : Directive} (hd : d ∈ catalog)
    (h : strongStyle.toSource.bitfield.isActive d.name = true) : d = bold := by
  have hactive : ∀ d ∈ catalog, (Bitfield.mk [64]).isActive d.name = true → d.name = bold.name := by
    decide +kernel
  have hbits : strongStyle.toSource.bitfield = ⟨[64]⟩ := by decide +kernel
  rw [hbits] at h
  exact List.inj_on_of_nodup_map nodup_catalog_names hd bold_mem (hactive d hd h)

private theorem steady_strongStyle (o : Options) {d : Directive} (hd : d ∈ catalog) :
    Steady (strongStyle.toSource.shown {} boardNormalizer (boardCheck o) d) := by
  have hown : Steady (boardNormalizer.normalize d.template) := by
    rw [(steady_catalog hd).normalize]
    exact steady_catalog hd
  rw [Source.shown]
  split
  · next t ht =>
    split
    · next hshown =>
      rw [eq_bold_of_active hd hshown.1, recompose_strongStyle] at ht
      rw [← Option.some.inj ht, steady_strong.normalize]
      exact steady_strong
    · exact hown
  · exact hown

theorem steady_example (o : Options) : ∀ s ∈ latest ([strongStyle].map StyleRow.toSource), ∀ d ∈ catalog,
    Steady (s.shown {} boardNormalizer (boardCheck o) d) := by
  intro s hs d hd
  have hm : s ∈ [strongStyle.toSource] :=
    List.mem_reverse.1 (List.mem_of_find?_eq_some (mem_latest_iff.1 hs))
  rw [List.mem_singleton.1 hm]
  exact steady_strongStyle o hd

theorem plain_example :
    ∀ r ∈ [emphasisRow], Plain (prefixLocalUrls exampleOptions.boardUrl r.template) := by
  intro r hr
  have hurl : prefixLocalUrls exampleOptions.boardUrl emphasisRow.template = emphasisRow.template := by
    decide +kernel
  have hs : emphasisRow.template.toList =
      ['<', 'e', 'm', '>', '{', 'T', 'E', 'X', 'T', '}', '<', '/', 'e', 'm', '>'] := String.toList_ofList
  rw [List.mem_singleton.1 hr, hurl]
  constructor <;> rw [hs] <;> decide

theorem regenerate_exampleBoard {s : Store}
    (hd : s.disk.Hosts exampleOptions.cacheDir exampleOptions.classPrefix) :
    ∃ a, (regenerate Formatter.compile exampleOptions exampleBoard s).1 = .ok a :=
  regenerate_plain _ _ _ _ (steady_example exampleOptions) plain_example (by decide) hd

/-- The hypotheses of the theorem hold of such a board, and it is published. -/
theorem regenerate_publishes_iff_example : exampleOptions.classPrefix ≠ "" ∧
    ({} : Disk).Hosts exampleOptions.cacheDir exampleOptions.classPrefix ∧
      ∃ a, (regenerate Formatter.compile exampleOptions exampleBoard {}).1 = .ok a := by
  refine ⟨by decide, hosts_example, ?_⟩
  obtain ⟨a, ha, -, hiff, -⟩ := regenerate_publishes_iff exampleOptions [strongStyle] [emphasisRow]
    [⟨":)", "smile.gif", "Smile"⟩] [⟨"darn", "****"⟩] {} (by decide) hosts_example
  rw [furnish_ofRows, Except.ok.injEq] at ha
  subst ha
  refine hiff.2 fun k t hk ht => ?_
  rw [get?_tags_finished_registered hk] at ht
  exact check_normalize_registered (steady_example exampleOptions) plain_example ht

/-- A BBCode whose comment holds a tag. -/
def commentedRow : BBCodeRow := ⟨"[x]{TEXT}[/x]", "<!-- <b> -->{TEXT}"⟩

def commentedUsage : Usage := ⟨"X", "X", [⟨"TEXT", none, []⟩], [], "[x]{TEXT}[/x]"⟩

theorem parse?_commented : Usage.parse? commentedRow.usage = .ok commentedUsage := by
  decide +kernel

theorem prefixLocalUrls_commented :
    prefixLocalUrls exampleOptions.boardUrl commentedRow.template = commentedRow.template := by
  decide +kernel

theorem toList_commented : commentedRow.template.toList =
    ['<', '!', '-', '-', ' ', '<', 'b', '>', ' ', '-', '-', '>', '{', 'T', 'E', 'X', 'T', '}'] :=
  String.toList_ofList

theorem validate_commented :
    (Template.mk commentedRow.template false).validate commentedUsage = .ok () := by
  refine validate_eq_ok_iff.2 ⟨fun id hid => ?_, SelfContained.check ?_⟩
  · simp only [tokensOf, toList_commented] at hid
    have hf : findAll placeholder ['<', '!', '-', '-', ' ', '<', 'b', '>', ' ', '-', '-', '>', '{', 'T',
        'E', 'X', 'T', '}'] = [['T', 'E', 'X', 'T']] := by decide
    rw [hf] at hid
    simp at hid
    subst hid
    decide
  · rw [toList_commented]
    decide

/-- Once the comment is an element, its tag is one that nothing closes. -/
theorem check_normalize_commented : check false (boardNormalizer.normalize commentedRow.template) =
    .error (.fault (.mismatched "b" "xsl:comment")) := by
  decide +kernel

private theorem upper_name_ne_X {d : Directive} (h : d ∈ catalog) : nameOf d ≠ "X" ∧ upper d.name ≠ "X" := by
  have hm : upper d.name ∈ catalog.map fun d => upper d.name := List.mem_map_of_mem h
  rw [upper_catalog_names] at hm
  have hne : upper d.name ≠ "X" := by
    intro he
    rw [he] at hm
    revert hm
    decide
  unfold nameOf
  split
  · exact ⟨by decide, hne⟩
  · exact ⟨hne, hne⟩

private theorem names_free_for_commented (o : Options) :
    (directiveAssembly o []).formatter.bbcodes.contains "X" = false ∧
      (directiveAssembly o []).formatter.tags.contains "X" = false := by
  obtain ⟨hname, htag⟩ := names_free o [] (a := ⟨configured o, refused o []⟩)
    (fun c hc => ⟨hc, upper_name_ne_X hc⟩) rfl rfl
  rw [← addDirectives_eq] at hname htag
  refine ⟨by rwa [bbcodes_directiveAssembly], ?_⟩
  rwa [Table.contains_eq_isSome, get?_tags_directiveAssembly, Option.isSome_map,
    ← Table.contains_eq_isSome]

private theorem registered_commented : (registered exampleOptions [] [commentedRow]).formatter.tags.get? "X" =
    some commentedRow.template := by
  obtain ⟨hname, htag⟩ := names_free_for_commented exampleOptions
  have hcheck : (directiveAssembly exampleOptions []).formatter.checkUsage commentedUsage
      ⟨commentedRow.template, false⟩ = .ok () := by
    have hrequired : Filter.required commentedUsage = [] := by decide
    rw [Formatter.checkUsage, Formatter.missingFilter?, hrequired]
    exact validate_commented
  have hd := Formatter.define_eq_ok_iff.2
    ⟨Formatter.readUsage_eq_ok_iff.2 parse?_commented, hname, htag, hcheck, rfl⟩
  have he : registered exampleOptions [] [commentedRow] =
      (directiveAssembly exampleOptions []).define commentedRow.usage ⟨commentedRow.template, false⟩ := by
    rw [registered, customDefinitions, List.map_cons, List.map_nil, prefixLocalUrls_commented,
      Assembly.defineAll, List.foldl_cons, List.foldl_nil]
  rw [he, Assembly.define_of_ok hd]
  exact (Table.get?_insert _ _ _ _).trans (if_pos rfl)

/-- A comment that holds a tag is accepted, and then keeps the whole board from being published. -/
theorem commentedRow_stops_publication : exampleOptions.classPrefix ≠ "" ∧
    ({} : Disk).Hosts exampleOptions.cacheDir exampleOptions.classPrefix ∧
      ∃ k, regenerate Formatter.compile exampleOptions (.ofRows [] [commentedRow] [] []) {} =
        (.error (.compile (.malformedTemplate k (.fault (.mismatched "b" "xsl:comment")))), {}) := by
  refine ⟨by decide, hosts_example, ?_⟩
  rw [regenerate_ofRows]
  have hsettings : (configured exampleOptions).SameSettings
      (registered exampleOptions [] [commentedRow]).formatter := registered_settings
  rcases publish_cases (s := {}) hsettings filtersPresent_registered contains_censorTag_registered
    (by decide) hosts_example [] [] with
    ⟨a, e, -, -, -, -, hall⟩ | ⟨k, t, p, hkt, hcheck, herror⟩
  · have hc := hall "X" _ registered_commented
    rw [check_normalize_commented] at hc
    cases hc
  · refine ⟨k, ?_⟩
    rcases source_of_registered hkt with ⟨d, hd, rfl⟩ | ⟨r, hr, rfl⟩
    · have hsteady : Steady (boardSwitch exampleOptions [] d).render :=
        steady_boardSwitch hd (List.forall_mem_nil _)
      rw [hsteady.check_normalize_shownTemplate k] at hcheck
      cases hcheck
    · rw [List.mem_singleton.1 hr, prefixLocalUrls_commented, check_normalize_commented] at hcheck
      cases hcheck
      exact herror

end BoardMarkup.Board
