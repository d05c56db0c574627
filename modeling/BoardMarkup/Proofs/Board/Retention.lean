import BoardMarkup.Proofs.Board.Sweep
import BoardMarkup.Proofs.Board.Writes
import Mathlib.Logic.Function.Iterate

/-! What tidying leaves of a cache in files, where these are beside the renderers. -/
namespace BoardMarkup.Board

open Disk Store

/-- What a run stored is there, and the directory is still one of this version. -/
structure Readable (o : Options) (b : Data) (a : Artifacts) (version : ByteArray) (s : Store) : Prop where
  parser : s.getJson? Parser.ofJson? o.parserKey = some a.parser
  record : rendererRecord? o s = some (recordOf o b a)
  version : s.disk.read? (Path.join o.cacheDir versionName) = some version

variable {o : Options} {b : Data} {a : Artifacts} {s t : Store} {version : ByteArray}

theorem tidy_of_record (hr : rendererRecord? o s = some (recordOf o b a)) (hp : o.classPrefix ≠ "") :
    (tidy o s).2 = { s with disk := (sweep s.disk o.cacheDir o.classPrefix
      (rendererFileName a.renderer.className)).2 } :=
  congrArg Prod.snd (tidy_eq hr hp)

section Tidied

variable {d e : Disk} {directory classPrefix keep path : String} {paths : List String} {l : Location}
  {content : ByteArray}

def Swept (d : Disk) (l : Location) (classPrefix keep path : String) : Prop :=
  ∃ name, d.resolve? path = some (l ++ [name]) ∧ Outdated d l classPrefix keep name

/-- A file is there after a sweep just when it is none of the outdated ones. -/
theorem Sweeps.read?_eq_iff (h : Sweeps d directory classPrefix keep l paths e) (hs : d.SameShape e)
    (hr : d.read? path = some content) :
    (e.read? path = some content ↔ ¬ Swept d l classPrefix keep path) ∧
      (Swept d l classPrefix keep path → e.read? path = none) := by
  have hgone : Swept d l classPrefix keep path → e.read? path = none := by
    rintro ⟨name, hl, ho⟩
    rw [read?_eq, hs.resolve?, hl, Option.bind_some, file?, h.gone name ho]
  -- what is not swept keeps its node, so its content too
  refine ⟨⟨fun he hswept => ?_, fun hnot => ?_⟩, hgone⟩
  · rw [hgone hswept] at he
    cases he
  · rw [read?_eq] at hr ⊢
    obtain ⟨k, hk, hfile⟩ := Option.bind_eq_some_iff.1 hr
    rw [hs.resolve?, hk, Option.bind_some, file?_congr (h.kept k fun name ho he => ?_), hfile]
    exact hnot ⟨name, by rw [hk, he], ho⟩

private theorem tidy_of_nil (h : (tidy o s).1 = []) : (tidy o s).2 = s := by
  unfold tidy at h ⊢
  cases hr : rendererRecord? o s with
  | none => rfl
  | some r =>
    rw [hr] at h
    simp only [sweep] at h ⊢
    rw [h]
    rfl

theorem iterate_tidy {r : RendererRecord} (hr : rendererRecord? o s = some r) (hp : r.classPrefix ≠ "")
    (h : s.disk.Lists o.cacheDir l) (hc : '/' ∉ r.classPrefix.toList) (n : Nat) :
    (fun u => (tidy o u).2)^[n + 1] s = (tidy o s).2 := by
  have hfixed : (tidy o (tidy o s).2).2 = (tidy o s).2 := tidy_of_nil (tidy_tidy hr hp h hc)
  rw [Function.iterate_succ_apply]
  exact Function.iterate_fixed (f := fun u => (tidy o u).2) hfixed n

theorem Sweeps.getJson?_eq_iff {α : Type} {f : Json → Option α} {root key : String} {x : α}
    (h : Sweeps s.disk directory classPrefix keep l paths e) (hs : s.disk.SameShape e)
    (hcache : s.cache = .files root) (hx : s.getJson? f key = some x) :
    { s with disk := e }.getJson? f key = some x ↔
      ¬ Swept s.disk l classPrefix keep (Path.join root key) := by
  rw [getJson?_files f hcache] at hx
  rw [getJson?_on f hcache]
  obtain ⟨content, hr, hvalue⟩ := Option.bind_eq_some_iff.1 hx
  obtain ⟨hkept, hgone⟩ := h.read?_eq_iff hs hr
  by_cases hswept : Swept s.disk l classPrefix keep (Path.join root key)
  · rw [hgone hswept]
    simp [hswept]
  · rw [hkept.2 hswept, Option.bind_some, hvalue]
    simp [hswept]

/-- What can be read before tidying can be read after it, if none of it is outdated. -/
theorem Readable.tidy_iff (h : Readable o b a version s) (hcache : s.cache = .files o.cacheDir)
    (hd : s.disk.Lists o.cacheDir l) (hp : o.classPrefix ≠ "") (hc : '/' ∉ o.classPrefix.toList) :
    Readable o b a version (tidy o s).2 ↔ ∀ key ∈ [o.parserKey, o.rendererKey, versionName],
      ¬ Swept s.disk l o.classPrefix (rendererFileName a.renderer.className) (Path.join o.cacheDir key) := by
  obtain ⟨hs, hsweeps⟩ := sweeps_sweep hd hc (rendererFileName a.renderer.className)
  have hparser := hsweeps.getJson?_eq_iff hs hcache h.parser
  have hrecord := hsweeps.getJson?_eq_iff hs hcache h.record
  have hversion := (hsweeps.read?_eq_iff hs h.version).1
  simp only [List.forall_mem_cons, List.not_mem_nil, false_imp_iff, implies_true, and_true]
  rw [tidy_of_record h.record hp, ← hparser, ← hrecord, ← hversion]
  constructor
  · intro hread
    exact ⟨hread.parser, hread.record, hread.version⟩
  · rintro ⟨hparser, hrecord, hversion⟩
    exact ⟨hparser, hrecord, hversion⟩

/-- Tidying any number of times takes no more than tidying once. -/
theorem Readable.iterate_tidy_iff (h : Readable o b a version s) (hcache : s.cache = .files o.cacheDir)
    (hd : s.disk.Lists o.cacheDir l) (hp : o.classPrefix ≠ "") (hc : '/' ∉ o.classPrefix.toList) :
    (∀ n, Readable o b a version ((fun u => (tidy o u).2)^[n] s)) ↔
      ∀ key ∈ [o.parserKey, o.rendererKey, versionName], ¬ Swept s.disk l o.classPrefix
        (rendererFileName a.renderer.className) (Path.join o.cacheDir key) := by
  rw [← h.tidy_iff hcache hd hp hc]
  constructor
  · intro hall
    exact hall 1
  · intro htidied n
    cases n with
    | zero => exact h
    | succ n =>
      rw [iterate_tidy h.record hp hd hc]
      exact htidied

end Tidied

section Spared

variable {d : Disk} {directory classPrefix keep path : String} {content : ByteArray}

/-- Whether what a path leads to has a name that no search for a class prefix finds. -/
def Spared (d : Disk) (classPrefix path : String) : Prop :=
  ∀ l name, d.resolve? path = some (l ++ [name]) → ¬ classPrefix.toList <+: name.toList

theorem name_of_mem_listing (h : d.Proper) (hm : path ∈ listing d directory classPrefix) :
    ∃ name : String, Path.fileName? path = some name.toList ∧ classPrefix.toList <+: name.toList := by
  cases hr : d.resolve? directory with
  | none =>
    rw [listing, hr] at hm
    cases hm
  | some l =>
    rw [listing_eq hr, List.mem_map] at hm
    obtain ⟨name, hname, rfl⟩ := hm
    obtain ⟨hnode, hstarts⟩ := mem_namesIn_iff.1 hname
    exact ⟨name, fileName?_pathIn (h.isName hnode).1, hstarts⟩

/-- Wherever a search looks, what it finds has a name that starts with the class prefix. -/
theorem name_of_mem_candidates (h : d.Proper) (hc : '/' ∉ classPrefix.toList)
    (hm : path ∈ candidates d directory classPrefix) :
    ∃ name : String, Path.fileName? path = some name.toList ∧ classPrefix.toList <+: name.toList := by
  have hlast : ∀ names : List String, (names ++ [classPrefix]).getLast? = some classPrefix := by simp
  unfold candidates at hm
  rw [names_append_slash directory hc] at hm
  cases hnames : Path.names directory with
  | nil => exact absurd (List.map_eq_nil_iff.1 hnames) (Text.split_ne_nil _ _)
  | cons first rest =>
    rw [hnames] at hm
    dsimp only at hm
    -- the search starts at the root or where the process is; the last part is the prefix either way
    by_cases hfirst : (first :: rest ++ [classPrefix]).head? = some ""
    · rw [if_pos hfirst] at hm
      simp only [List.cons_append, List.drop_succ_cons, List.drop_zero, hlast] at hm
      split at hm
      · next hstart =>
        cases hstart
        exact name_of_mem_listing h hm
      · cases hm
    · rw [if_neg hfirst] at hm
      simp only [hlast] at hm
      split at hm
      · next hstart =>
        cases hstart
        exact name_of_mem_listing h hm
      · cases hm

/-- A sweep leaves what has a name that does not start with the class prefix, in all directories. -/
theorem sweep_spares (h : d.Sound) (hc : '/' ∉ classPrefix.toList) (directory keep : String) :
    d.SameShape (sweep d directory classPrefix keep).2 ∧ (sweep d directory classPrefix keep).2.Sound ∧
      ∀ l name, ¬ classPrefix.toList <+: name.toList →
        (sweep d directory classPrefix keep).2.node? (l ++ [name]) = d.node? (l ++ [name]) := by
  have hs := (sweep_keeps h.rooted directory classPrefix keep).1
  refine ⟨hs, h.of_keeps hs.keeps (h.toProper.foldl_remove? _), fun l name hname => ?_⟩
  refine (foldl_remove?_keeps (fun path hp he => hname ?_) h.rooted).2 l
  obtain ⟨found, hfound, hstarts⟩ := name_of_mem_candidates h.toProper hc (List.mem_filter.1 hp).1
  rw [he] at hfound
  rwa [Option.some.inj hfound]

theorem read?_sweep (h : d.Sound) (hc : '/' ∉ classPrefix.toList) (hr : d.read? path = some content)
    (hspared : Spared d classPrefix path) (directory keep : String) :
    (sweep d directory classPrefix keep).2.read? path = some content := by
  obtain ⟨hs, -, hkept⟩ := sweep_spares h hc directory keep
  rw [read?_eq] at hr ⊢
  obtain ⟨k, hk, hfile⟩ := Option.bind_eq_some_iff.1 hr
  have hne := ne_nil_of_not_isDirectory (not_isDirectory_of_file? hfile)
  obtain ⟨l, name, rfl⟩ : ∃ l name, k = l ++ [name] :=
    ⟨_, _, (List.dropLast_append_getLast hne).symm⟩
  rw [hs.resolve?, hk, Option.bind_some, file?_congr (hkept l name (hspared l name hk)), hfile]

theorem getJson?_sweep {α : Type} {f : Json → Option α} {root key : String} {x : α} (h : s.disk.Sound)
    (hc : '/' ∉ classPrefix.toList) (hcache : s.cache = .files root) (hx : s.getJson? f key = some x)
    (hspared : Spared s.disk classPrefix (Path.join root key)) (directory keep : String) :
    { s with disk := (sweep s.disk directory classPrefix keep).2 }.getJson? f key = some x := by
  rw [getJson?_files f hcache] at hx
  rw [getJson?_on f hcache]
  obtain ⟨content, hr, hvalue⟩ := Option.bind_eq_some_iff.1 hx
  rw [read?_sweep h hc hr hspared directory keep, Option.bind_some, hvalue]

/-- Tidying any number of times leaves what has other names than renderers. -/
theorem Readable.iterate_tidy (h : Readable o b a version s) (hcache : s.cache = .files o.cacheDir)
    (hd : s.disk.Sound) (hp : o.classPrefix ≠ "") (hc : '/' ∉ o.classPrefix.toList)
    (hspared : ∀ key ∈ [o.parserKey, o.rendererKey, versionName],
      Spared s.disk o.classPrefix (Path.join o.cacheDir key)) (n : Nat) :
    Readable o b a version ((fun u => (tidy o u).2)^[n] s) := by
  -- a sweep makes no directories, so paths lead where they led and stay spared
  induction n generalizing s with
  | zero => exact h
  | succ n ih =>
    obtain ⟨hs, hsound, -⟩ := sweep_spares hd hc o.cacheDir (rendererFileName a.renderer.className)
    have hspared' := hspared
    simp only [List.forall_mem_cons, List.not_mem_nil, false_imp_iff, implies_true, and_true] at hspared'
    obtain ⟨hparser, hrecord, hversion⟩ := hspared'
    rw [Function.iterate_succ_apply, tidy_of_record h.record hp]
    refine ih ⟨?_, ?_, ?_⟩ hcache hsound fun key hkey l name hr => ?_
    · exact getJson?_sweep hd hc hcache h.parser hparser _ _
    · exact getJson?_sweep hd hc hcache h.record hrecord _ _
    · exact read?_sweep hd hc h.version hversion _ _
    · exact hspared key hkey l name ((hs.resolve? _).symm.trans hr)

end Spared

/--
With valid settings and a cache in files, in the directory of the renderers: a run that succeeds leaves
what it stored and the directory's version to be read after any number of tidyings, if its writes go to
places of their own and no name of these starts with the class prefix. More precisely this is so just
when its writes take neither the parser nor the version away, and none of the three is outdated.
-/
theorem cache_stays_readable (c : Settings.Config) (hc : c.validate = .ok ()) (b : Data) (s t : Store)
    (a : Artifacts) (version : ByteArray) (hcache : s.cache = .files c.cacheDir) (hd : s.disk.Sound)
    (hversion : s.disk.read? (Path.join c.cacheDir versionName) = some version)
    (hrun : regenerate Formatter.compile c.options b s = (.ok a, t))
    (hputs : (Store.mk (a.renderer.save s.disk).2 s.cache).succeeds (puts c.options b a) = true) :
    ((∀ p ∈ keyPaths c.cacheDir c.rendererKey,
        t.disk.resolve? (Path.join c.cacheDir c.parserKey) ≠ t.disk.resolve? p) →
      (∀ p ∈ written c.options a,
        t.disk.resolve? (Path.join c.cacheDir versionName) ≠ t.disk.resolve? p) →
      (∀ key ∈ [c.parserKey, c.rendererKey, versionName],
        Spared t.disk c.classPrefix (Path.join c.cacheDir key)) →
      ∀ n, Readable c.options b a version ((fun u => (tidy c.options u).2)^[n] t)) ∧
    ∀ l, t.disk.Lists c.cacheDir l →
      ((∀ n, Readable c.options b a version ((fun u => (tidy c.options u).2)^[n] t)) ↔
        (∀ p ∈ keyPaths c.cacheDir c.rendererKey,
          t.disk.resolve? (Path.join c.cacheDir c.parserKey) ≠ t.disk.resolve? p) ∧
        t.disk.read? (Path.join c.cacheDir versionName) = some version ∧
        ∀ key ∈ [c.parserKey, c.rendererKey, versionName], ¬ Swept t.disk l c.classPrefix
          (rendererFileName a.renderer.className) (Path.join c.cacheDir key)) := by
  have hslash : '/' ∉ c.options.classPrefix.toList := Settings.Config.noSlash_of_validate hc
  have hne : c.options.classPrefix ≠ "" := (Settings.Config.names_of_validate hc).2
  obtain ⟨htcache, e, f, hwrites⟩ := writes_of_regenerate hrun hcache hputs
  have hsound := hwrites.record.sound (hwrites.parser.sound (hwrites.renderer.sound hd))
  have hrecord := hwrites.record_eq htcache
  have hparser := hwrites.parser_eq_iff htcache
  constructor
  · intro hplaces hspares hspared
    have hread : Readable c.options b a version t :=
      ⟨hparser.2 hplaces, hrecord, hwrites.read?_of_ne hversion hspares⟩
    exact hread.iterate_tidy htcache hsound hne hslash hspared
  · intro l hlists
    constructor
    · intro hall
      -- with no tidying at all the run's own writes must have spared what they stored
      have hread : Readable c.options b a version t := hall 0
      exact ⟨hparser.1 hread.parser, hread.version,
        (hread.iterate_tidy_iff htcache hlists hne hslash).1 hall⟩
    · rintro ⟨hplaces, hkept, hnot⟩
      have hread : Readable c.options b a version t := ⟨hparser.2 hplaces, hrecord, hkept⟩
      exact (hread.iterate_tidy_iff htcache hlists hne hslash).2 hnot

def prefixedConfig (classPrefix : String) : Settings.Config :=
  { Settings.Config.default "/" with classPrefix }

def emptyBoard : Data := .ofRows [] [] [] []

/-- A store whose cache is in the directory of the renderers, with the version of that directory. -/
def versionedStore : Store :=
  ⟨⟨[(["cache"], .directory), (["cache", "VERSION"], .file "1".toUTF8)], []⟩, .files "/cache"⟩

section Versioned

variable {classPrefix : String} {e : Disk}

theorem prefixedConfig_cacheDir (classPrefix : String) :
    (prefixedConfig classPrefix).cacheDir = "/cache" := by
  have hjoin : Path.join "/" "cache" = "/cache" := by decide
  exact hjoin

theorem prefixedConfig_parserKey (classPrefix : String) :
    (prefixedConfig classPrefix).options.parserKey = "_bbforge_parser" := rfl

theorem prefixedConfig_rendererKey (classPrefix : String) :
    (prefixedConfig classPrefix).options.rendererKey = "_bbforge_renderer" := rfl

theorem cache_versionedStore (classPrefix : String) :
    versionedStore.cache = .files (prefixedConfig classPrefix).cacheDir := by
  rw [prefixedConfig_cacheDir]
  rfl

theorem makeDirectory_versionedStore :
    versionedStore.disk.makeDirectory (Path.holder "/cache") = (versionedStore.disk, true) := by
  rw [holder_cache]
  decide +kernel

theorem prepared_versionedStore : versionedStore.disk.prepared "/cache" = versionedStore.disk := by
  rw [prepared, makeDirectory_versionedStore]

theorem not_isDirectory_versionedStore (name : String) :
    versionedStore.disk.isDirectory (["cache"] ++ [name]) = false := by
  by_cases hn : "VERSION" = name <;> simp [versionedStore, isDirectory, node?, hn]

theorem opens_versionedStore : versionedStore.disk.Opens "/cache" ["cache"] := by
  constructor <;> decide

private theorem hosts_versionedStore (hp : classPrefix = "bbforge_renderer_" ∨ classPrefix = "_bbforge_") :
    versionedStore.disk.Hosts "/cache" classPrefix := by
  have hfits : '/' ∉ classPrefix.toList ∧ (rendererFileName classPrefix).utf8ByteSize + 44 ≤ 255 ∧
      (Path.join "/cache" (rendererFileName classPrefix)).utf8ByteSize + 44 < 4096 ∧
      (versionedStore.disk.resolve? (Path.join "/cache" (rendererFileName classPrefix))).isSome := by
    rcases hp with rfl | rfl <;> decide
  obtain ⟨hslash, hname, hpath, hleads⟩ := hfits
  exact hosts_of_makeDirectory hslash hname hpath makeDirectory_versionedStore hleads
    opens_versionedStore.leads not_isDirectory_versionedStore

theorem put_versionedStore (hs : versionedStore.disk.SameShape e) {key : String}
    (hk : key = "_bbforge_parser" ∨ key = "_bbforge_renderer") (content : ByteArray) :
    putFileSucceeds e "/cache" key content = true ∧
      versionedStore.disk.SameShape (putFile e "/cache" key content) := by
  have hplaces : Path.IsName key.toList ∧
      versionedStore.disk.resolve? (Path.join "/cache" key) = some ["cache", key] ∧
      versionedStore.disk.isDirectory ["cache", key] = false ∧
      versionedStore.disk.resolve? (Path.join "/cache" (temporary key)) = some ["cache", temporary key] ∧
      versionedStore.disk.isDirectory ["cache", temporary key] = false := by
    rcases hk with rfl | rfl <;> decide
  obtain ⟨hname, hm, hmd, hl, hld⟩ := hplaces
  exact putFileSucceeds_of_sameShape hs hname makeDirectory_versionedStore hm hmd hl hld content

theorem regenerate_versionedStore (hp : classPrefix = "bbforge_renderer_" ∨ classPrefix = "_bbforge_") :
    ∃ a t, regenerate Formatter.compile (prefixedConfig classPrefix).options emptyBoard versionedStore =
        (.ok a, t) ∧
      Produced (prefixedConfig classPrefix).options a ∧
      (Store.mk (a.renderer.save versionedStore.disk).2 versionedStore.cache).succeeds
        (puts (prefixedConfig classPrefix).options emptyBoard a) = true ∧
      versionedStore.disk.SameShape t.disk := by
  have hne : (prefixedConfig classPrefix).options.classPrefix ≠ "" := by
    rcases hp with rfl | rfl <;> decide
  have hhosts : versionedStore.disk.Hosts (prefixedConfig classPrefix).options.cacheDir
      (prefixedConfig classPrefix).options.classPrefix := hosts_versionedStore hp
  obtain ⟨a, ha⟩ := regenerate_plain (s := versionedStore) [] [] [] [] (List.forall_mem_nil _)
    (List.forall_mem_nil _) hne hhosts
  rcases regenerate_cases hne hhosts emptyBoard with ⟨a', f, hrun, hproduced, -⟩ | ⟨error, hrun⟩
  · obtain ⟨digits, hdigits, hdigest⟩ := a'.renderer.snapshot.exists_digest
    obtain ⟨e, hsave, hs, -⟩ :=
      hhosts.save_eq_ok hdigits (hdigest ▸ hproduced.className) hproduced.file
    obtain ⟨e', hsave', hdeposit⟩ := deposit_of_regenerate hrun
    rw [hsave] at hsave'
    cases hsave'
    have hshape : versionedStore.disk.SameShape e := prepared_versionedStore ▸ hs
    obtain ⟨hparser, hbetween⟩ := put_versionedStore hshape (.inl rfl) a'.parser.toJson.write.toUTF8
    obtain ⟨hrecord, hafter⟩ := put_versionedStore hbetween (.inr rfl)
      (recordOf (prefixedConfig classPrefix).options emptyBoard a').toJson.write.toUTF8
    refine ⟨a', _, hrun, hproduced, ?_, ?_⟩
    · rw [hsave]
      exact succeeds_puts_iff.2 ⟨hparser, hrecord⟩
    · rw [hdeposit, show versionedStore.cache = .files "/cache" from rfl, deposit_files,
        prefixedConfig_parserKey, prefixedConfig_rendererKey]
      exact hafter
  · rw [← show emptyBoard = .ofRows [] [] [] [] from rfl, hrun] at ha
    cases ha

theorem sound_versionedStore : versionedStore.disk.Sound :=
  ⟨⟨by decide, by decide⟩, List.forall_mem_nil _, rooted_nil _⟩

theorem version_ne_renderer {digits extension : List Char} (hd : IsDigest digits)
    (hx : extension = Renderer.json ∨ extension = Renderer.unfinished) :
    versionedStore.disk.resolve? (Path.join "/cache" versionName) ≠ versionedStore.disk.resolve?
      (Path.join "/cache" (String.ofList (Renderer.name "bbforge_renderer_" digits extension))) := by
  have hversion : versionedStore.disk.resolve? (Path.join "/cache" versionName) =
      some ["cache", versionName] := by decide
  have hname : Path.IsName (Renderer.name "bbforge_renderer_" digits extension) :=
    Renderer.isName_name (by decide) hd.alphanumeric hx
  intro he
  obtain ⟨-, -, hplace⟩ := (opens_versionedStore.resolve?_join hname).1 (he.symm.trans hversion)
  have hsame : versionName = String.ofList (Renderer.name "bbforge_renderer_" digits extension) := by
    simpa using hplace
  -- the first letters differ, whatever the digits are
  have hhead := congrArg (fun n : String => n.toList.head?) hsame
  have hfirst : "bbforge_renderer_".toList.head? = some 'b' := by decide
  have hversionHead : versionName.toList.head? = some 'V' := by decide
  simp only [String.toList_ofList, Renderer.name, List.head?_append, hfirst, hversionHead] at hhead
  cases hhead

private theorem join_cache {n : List Char} (hn : Path.IsName n) :
    Path.join "/cache" (String.ofList n) = "/cache" ++ "/" ++ String.ofList n := by
  have htext : Path.directoryText "/cache" = "/cache".toList ++ "/".toList := by decide
  rw [← String.toList_inj, Path.toList_join hn, htext]
  simp

theorem lists_of_writes {f g : Disk} {a : Artifacts} (hslash : '/' ∉ classPrefix.toList)
    (h : Writes (prefixedConfig classPrefix).options emptyBoard a versionedStore.disk e f g)
    (ha : Produced (prefixedConfig classPrefix).options a) (hs : versionedStore.disk.SameShape g) :
    g.Lists "/cache" ["cache"] := by
  have hwritten : ∀ p ∈ [a.renderer.file, Path.join "/cache" "_bbforge_parser",
      Path.join "/cache" "_bbforge_renderer"],
      ∃ n, Path.IsName n ∧ p = Path.join "/cache" (String.ofList n) := by
    simp only [List.forall_mem_cons, List.not_mem_nil, false_imp_iff, implies_true, and_true]
    refine ⟨?_, ⟨"_bbforge_parser".toList, by decide, by rw [String.ofList_toList]⟩,
      ⟨"_bbforge_renderer".toList, by decide, by rw [String.ofList_toList]⟩⟩
    obtain ⟨n, hn, hname⟩ := ha.exists_name hslash
    exact ⟨n, hn, by rw [ha.file, hname]; rfl⟩
  constructor
  case proper => exact (h.record.sound (h.parser.sound (h.renderer.sound sound_versionedStore))).toProper
  case leads =>
    rw [hs.resolve?]
    decide
  case isDirectory =>
    rw [hs.directories]
    decide
  case searchable => exact fun _ => by decide
  case reaches =>
    intro name hname
    have hfile : (g.file? (["cache"] ++ [name])).isSome :=
      isSome_file? hname ((hs.directories _).trans (not_isDirectory_versionedStore name))
    -- a file in the directory is the version, or was written there by the run
    rcases h.written_or_isSome_file? hfile with hbefore | ⟨p, hp, hr⟩
    · have hversion : name = "VERSION" := by
        by_contra hne
        simp [versionedStore, file?, node?, Ne.symm hne] at hbefore
      rw [hversion]
      decide
    · obtain ⟨n, hn, rfl⟩ := hwritten p hp
      rw [hs.resolve?] at hr
      obtain ⟨hvalid, -, hplace⟩ := (opens_versionedStore.resolve?_join hn).1 hr
      have hsame : name = String.ofList n := by simpa using hplace
      rwa [hsame, ← join_cache hn]

private theorem swept_sharedPrefix (hs : versionedStore.disk.SameShape e) {key : String}
    (hk : key = "_bbforge_parser" ∨ key = "_bbforge_renderer") {content : ByteArray}
    (hr : e.read? (Path.join "/cache" key) = some content) (className : String) :
    Swept e ["cache"] "_bbforge_" (rendererFileName className) (Path.join "/cache" key) := by
  have hkey : versionedStore.disk.resolve? (Path.join "/cache" key) = some (["cache"] ++ [key]) ∧
      "_bbforge_".toList <+: key.toList ∧ key.toList.getLast? = some 'r' ∧
      Path.extension? key ≠ some "tmp".toList := by
    rcases hk with rfl | rfl <;> decide
  obtain ⟨hplace, hstarts, hlast, hfinished⟩ := hkey
  rw [← hs.resolve?] at hplace
  refine ⟨key, hplace, ?_⟩
  constructor
  case isFile =>
    rw [read?_eq, hplace, Option.bind_some] at hr
    rw [hr]
    rfl
  case starts => exact hstarts
  case notKept =>
    rintro rfl
    -- no key ends as the files of renderers do
    have hend : ".json".toList.getLast? = some 'n' := by decide
    rw [rendererFileName, String.toList_append, List.getLast?_append, hend] at hlast
    cases hlast
  case finished => exact hfinished

end Versioned

/-- With the settings that count without a file, all stays to be read. -/
theorem cache_stays_readable_example : (prefixedConfig "bbforge_renderer_").validate = .ok () ∧
    versionedStore.disk.Sound ∧ ∃ a t,
      regenerate Formatter.compile (prefixedConfig "bbforge_renderer_").options emptyBoard
        versionedStore = (.ok a, t) ∧
      t.disk.Lists "/cache" ["cache"] ∧
      ∀ n, Readable (prefixedConfig "bbforge_renderer_").options emptyBoard a "1".toUTF8
        ((fun u => (tidy (prefixedConfig "bbforge_renderer_").options u).2)^[n] t) := by
  have hvalid : (prefixedConfig "bbforge_renderer_").validate = .ok () := by decide
  obtain ⟨a, t, hrun, hproduced, hputs, hs⟩ := regenerate_versionedStore (.inl rfl)
  have hcache := cache_versionedStore "bbforge_renderer_"
  obtain ⟨-, e, f, hwrites⟩ := writes_of_regenerate hrun hcache hputs
  have hlists := lists_of_writes (by decide) hwrites hproduced hs
  refine ⟨hvalid, sound_versionedStore, a, t, hrun, hlists, ?_⟩
  obtain ⟨digits, hd, hdigest⟩ := a.renderer.snapshot.exists_digest
  have hfile : a.renderer.file = Path.join "/cache"
      (String.ofList (Renderer.name "bbforge_renderer_" digits Renderer.json)) := by
    have hdir : (prefixedConfig "bbforge_renderer_").options.cacheDir = "/cache" :=
      prefixedConfig_cacheDir "bbforge_renderer_"
    rw [hproduced.file, hdir, hproduced.className, hdigest, ← Renderer.rendererFileName_eq]
    rfl
  have hversion : versionedStore.disk.read?
      (Path.join (prefixedConfig "bbforge_renderer_").cacheDir versionName) = some "1".toUTF8 := by
    decide
  refine (cache_stays_readable _ hvalid emptyBoard versionedStore t a "1".toUTF8 hcache
    sound_versionedStore hversion hrun hputs).1 ?_ ?_ ?_
  · simp only [hs.resolve?]
    decide
  · have hkeys : ∀ p ∈ keyPaths "/cache" "_bbforge_parser" ++ keyPaths "/cache" "_bbforge_renderer",
        versionedStore.disk.resolve? (Path.join "/cache" versionName) ≠
          versionedStore.disk.resolve? p := by decide
    intro p hp
    rw [written, hfile, Renderer.withExtension_name (by decide) hd, List.append_assoc,
      List.mem_append] at hp
    rw [hs.resolve?, hs.resolve?, prefixedConfig_cacheDir]
    rcases hp with hp | hp
    · rcases List.mem_pair.1 hp with rfl | rfl
      · exact version_ne_renderer hd (.inl rfl)
      · exact version_ne_renderer hd (.inr rfl)
    · exact hkeys p hp
  · have hnames : ∀ key ∈ ["_bbforge_parser", "_bbforge_renderer", versionName],
        versionedStore.disk.resolve? (Path.join "/cache" key) = some ["cache", key] ∧
          ¬ "bbforge_renderer_".toList <+: key.toList := by decide
    intro key hkey l name hr
    obtain ⟨hplace, hstarts⟩ := hnames key hkey
    rw [hs.resolve?, prefixedConfig_cacheDir, hplace] at hr
    have hlast : ["cache"] ++ [key] = l ++ [name] := Option.some.inj hr
    rwa [← List.singleton_inj.1 (List.append_inj' hlast rfl).2]

/--
A class prefix that the keys start with is valid, too. One tidying then takes away all that the run
stored: both files have names that a renderer could have.
-/
theorem sharedPrefix_loses_cache : (prefixedConfig "_bbforge_").validate = .ok () ∧
    versionedStore.cache = .files (prefixedConfig "_bbforge_").cacheDir ∧ ∃ a t,
      regenerate Formatter.compile (prefixedConfig "_bbforge_").options emptyBoard versionedStore =
        (.ok a, t) ∧
      t.getJson? Parser.ofJson? (prefixedConfig "_bbforge_").parserKey = some a.parser ∧
      rendererRecord? (prefixedConfig "_bbforge_").options t =
        some (recordOf (prefixedConfig "_bbforge_").options emptyBoard a) ∧
      (tidy (prefixedConfig "_bbforge_").options t).2.getJson? Parser.ofJson?
        (prefixedConfig "_bbforge_").parserKey = none ∧
      rendererRecord? (prefixedConfig "_bbforge_").options
        (tidy (prefixedConfig "_bbforge_").options t).2 = none := by
  have hcache := cache_versionedStore "_bbforge_"
  obtain ⟨a, t, hrun, hproduced, hputs, hs⟩ := regenerate_versionedStore (.inr rfl)
  obtain ⟨htcache, e, f, hwrites⟩ := writes_of_regenerate hrun hcache hputs
  have hrecord := hwrites.record_eq htcache
  have hparser := (hwrites.parser_eq_iff htcache).2 (by
    simp only [hs.resolve?]
    decide)
  refine ⟨by decide, hcache, a, t, hrun, hparser, hrecord, ?_⟩
  have hslash : '/' ∉ "_bbforge_".toList := by decide
  obtain ⟨hshape, hsweeps⟩ := sweeps_sweep (lists_of_writes hslash hwrites hproduced hs) hslash
    (rendererFileName a.renderer.className)
  have hfiles : t.cache = .files "/cache" := htcache
  have hgone : ∀ {α : Type} {p : Json → Option α} {key : String} {x : α},
      key = "_bbforge_parser" ∨ key = "_bbforge_renderer" → t.getJson? p key = some x →
        { t with disk := (sweep t.disk "/cache" "_bbforge_"
          (rendererFileName a.renderer.className)).2 }.getJson? p key = none := by
    intro α p key x hk hx
    rw [getJson?_files p hfiles] at hx
    obtain ⟨content, hr, -⟩ := Option.bind_eq_some_iff.1 hx
    have hswept := swept_sharedPrefix hs hk hr a.renderer.className
    rw [getJson?_on p hfiles, (hsweeps.read?_eq_iff hshape hr).2 hswept]
    rfl
  rw [tidy_of_record hrecord (by decide)]
  exact ⟨hgone (.inl rfl) hparser, hgone (.inr rfl) hrecord⟩

end BoardMarkup.Board
