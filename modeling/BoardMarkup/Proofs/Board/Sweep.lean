import BoardMarkup.Proofs.Board.Composition
import BoardMarkup.Proofs.Board.LifeCycle
import BoardMarkup.Proofs.Board.Search

/-! Which files tidying removes. -/
namespace BoardMarkup

open Disk Board

namespace Path

variable {directory name : String}

theorem searched_append (h : '/' ∉ name.toList) :
    searched (directory ++ "/" ++ name) = pathIn (searched directory) name := by
  have hnames := names_append_slash directory h
  unfold searched
  rw [hnames]
  cases hd : names directory with
  | nil => exact absurd (List.map_eq_nil_iff.1 hd) (Text.split_ne_nil _ _)
  | cons first rest =>
    simp only [List.cons_append, List.head?_cons, List.tail_cons, Option.some_inj]
    by_cases hfirst : first = ""
    · rw [if_pos hfirst, if_pos hfirst, List.foldl_append, List.foldl_cons, List.foldl_nil]
    · rw [if_neg hfirst, if_neg hfirst, ← List.cons_append, List.foldl_append, List.foldl_cons,
        List.foldl_nil]

theorem Searchable.append (hs : Searchable directory) (hne : directory ≠ "") (hn : IsName name.toList) :
    Searchable (directory ++ "/" ++ name) := by
  intro he
  rw [names_append_slash directory hn.noSlash] at he
  have hhead : (directory ++ "/" ++ name).toList.head? = directory.toList.head? := by
    cases hc : directory.toList with
    | nil => exact absurd (String.toList_inj.1 (hc.trans String.toList_empty.symm)) hne
    | cons c cs => simp [hc]
  rw [hhead]
  refine hs ?_
  rw [List.dropWhile_append] at he
  split at he
  · next hnil =>
    rw [List.isEmpty_iff] at hnil
    have hname : name ≠ "" := fun h => hn.ne_nil (by rw [h]; rfl)
    by_cases hdot : name = "."
    · exact absurd (by rw [hdot]; rfl) hn.ne_dot
    · rw [List.dropWhile_cons_of_neg (by simpa using hdot)] at he
      exact absurd (Option.some.inj he) hname
  · next hcons =>
    cases hd : (names directory).dropWhile (· == ".") with
    | nil => exact absurd (by rw [hd]; rfl) hcons
    | cons first rest =>
      rw [hd] at he
      exact he

end Path

namespace Board

section PathIn

variable {directory name : String}

private theorem toList_pathIn_eq (directory : String) (hn : '/' ∉ name.toList) : ∃ before,
    (pathIn directory name).toList = before ++ name.toList ∧
      (before = [] ∨ ∃ start, before = start ++ ['/']) := by
  by_cases hdot : directory = "."
  · exact ⟨[], by rw [hdot, pathIn_dot]; rfl, .inl rfl⟩
  · exact ⟨_, toList_pathIn hdot hn, Path.directoryText_cases directory⟩

theorem fileName?_pathIn (hn : Path.IsName name.toList) :
    Path.fileName? (pathIn directory name) = some name.toList := by
  obtain ⟨before, hp, hb⟩ := toList_pathIn_eq directory hn.noSlash
  exact Path.fileName?_eq hn hp hb

theorem extension?_pathIn (hn : Path.IsName name.toList) :
    Path.extension? (pathIn directory name) = Path.extension? name := by
  have hself : Path.fileName? name = some name.toList := Path.fileName?_eq hn rfl (.inl rfl)
  rw [Path.extension?, Path.extension?, fileName?_pathIn hn, hself]

theorem pathIn_lt {other : String} (hn : '/' ∉ name.toList) (ho : '/' ∉ other.toList)
    (h : name < other) : pathIn directory name < pathIn directory other := by
  by_cases hdot : directory = "."
  · rwa [hdot, pathIn_dot, pathIn_dot]
  · rw [String.lt_iff] at h ⊢
    rw [toList_pathIn hdot hn, toList_pathIn hdot ho]
    exact List.append_left_lt h

end PathIn

end Board

/--
A directory that a search finds under its path, and everything in it. A path with a name behind it
must not be too long for the system.
-/
structure Disk.Lists (d : Disk) (directory : String) (l : Location) : Prop where
  proper : d.Proper
  leads : d.resolve? directory = some l
  isDirectory : d.isDirectory l = true
  searchable : Path.Searchable directory
  reaches : ∀ name, (d.node? (l ++ [name])).isSome → validPath (directory ++ "/" ++ name) = true

namespace Disk.Lists

variable {d e : Disk} {directory name : String} {l : Location}

theorem validPath_searched (h : d.Lists directory l) : validPath (searched directory) = true := by
  have hleads := h.leads
  unfold resolve? at hleads
  split at hleads
  · next hv => exact validPath_of_sublist (searched_sublist h.searchable) hv.2
  · cases hleads

private theorem ne_empty (h : d.Lists directory l) : directory ≠ "" := by
  rintro rfl
  cases h.leads

theorem resolve?_pathIn (h : d.Lists directory l) (hn : (d.node? (l ++ [name])).isSome)
    (hr : d.resolve? (searched directory) = some l) :
    d.resolve? (pathIn (searched directory) name) = some (l ++ [name]) := by
  obtain ⟨hname, hv⟩ := h.proper.isName hn
  have hdescends : Descends name := by
    refine ⟨fun he => hname.ne_nil ?_, fun he => hname.ne_dot ?_, fun he => hname.ne_dots ?_⟩ <;>
      rw [he] <;> rfl
  have hpath : validPath (pathIn (searched directory) name) = true := by
    rw [← Path.searched_append hname.noSlash]
    exact validPath_of_sublist (searched_sublist (h.searchable.append h.ne_empty hname))
      (h.reaches name hn)
  exact (Board.resolve?_pathIn hr hname.noSlash fun _ => hdescends.1).2
    ⟨hpath, (follow_descends hdescends).2 ⟨h.isDirectory, hv, rfl⟩⟩

end Disk.Lists

namespace Board

/-- A file in a directory whose name starts as is asked, which is neither kept nor being written. -/
structure Outdated (d : Disk) (l : Location) (classPrefix keep name : String) : Prop where
  isFile : (d.file? (l ++ [name])).isSome
  starts : classPrefix.toList <+: name.toList
  notKept : name ≠ keep
  finished : Path.extension? name ≠ some "tmp".toList

variable {d e : Disk} {directory classPrefix keep name path : String} {l : Location}

theorem Outdated.isSome_node? (h : Outdated d l classPrefix keep name) :
    (d.node? (l ++ [name])).isSome := by
  obtain ⟨content, hc⟩ := Option.isSome_iff_exists.1 h.isFile
  rw [file?_eq_some_iff.1 hc]
  rfl

/-- The outdated files of a directory are removed, listed in order, and nothing else changes. -/
structure Sweeps (d : Disk) (directory classPrefix keep : String) (l : Location)
    (paths : List String) (e : Disk) : Prop where
  mem_iff : ∀ path, path ∈ paths ↔
    ∃ name, path = pathIn (searched directory) name ∧ Outdated d l classPrefix keep name
  leads : ∀ name, Outdated d l classPrefix keep name →
    d.resolve? (pathIn (searched directory) name) = some (l ++ [name])
  sorted : paths.Pairwise (· < ·)
  gone : ∀ name, Outdated d l classPrefix keep name → e.node? (l ++ [name]) = none
  kept : ∀ k, (∀ name, Outdated d l classPrefix keep name → k ≠ l ++ [name]) → e.node? k = d.node? k

theorem isStale_pathIn (hname : Path.IsName name.toList)
    (hr : d.resolve? (pathIn directory name) = some (l ++ [name])) :
    isStale d keep (pathIn directory name) = true ↔
      name ≠ keep ∧ Path.extension? name ≠ some "tmp".toList ∧ (d.file? (l ++ [name])).isSome := by
  rw [isStale, fileName?_pathIn hname, extension?_pathIn hname, read?_eq, hr, Option.bind_some,
    Bool.and_eq_true, Bool.and_eq_true, bne_iff_ne, bne_iff_ne, and_assoc, Ne, Option.some_inj,
    String.toList_inj]

/-- What is outdated in a directory is swept, where the search arrives at the directory. -/
theorem mem_sweep_of_outdated (hs : Path.Searchable directory) (hc : '/' ∉ classPrefix.toList)
    (hr : d.resolve? directory = some l) (hd : d.isDirectory l = true)
    (hv : validPath (searched directory) = true) (hn : Path.IsName name.toList)
    (hleads : d.resolve? (pathIn (searched directory) name) = some (l ++ [name]))
    (ho : Outdated d l classPrefix keep name) :
    pathIn (searched directory) name ∈ (sweep d directory classPrefix keep).1 := by
  obtain ⟨hlisting, hsearched⟩ := candidates_eq hs hc hr hd hv
  rw [sweep, List.mem_filter, hlisting, listing_eq hsearched]
  exact ⟨List.mem_map_of_mem (mem_namesIn_iff.2 ⟨ho.isSome_node?, ho.starts⟩),
    (isStale_pathIn hn hleads).2 ⟨ho.notKept, ho.finished, ho.isFile⟩⟩

theorem mem_sweep_iff (h : d.Lists directory l) (hc : '/' ∉ classPrefix.toList) :
    path ∈ (sweep d directory classPrefix keep).1 ↔
      ∃ name, path = pathIn (searched directory) name ∧ Outdated d l classPrefix keep name := by
  obtain ⟨hlisting, hr⟩ :=
    candidates_eq h.searchable hc h.leads h.isDirectory h.validPath_searched
  constructor
  · intro hm
    rw [sweep, List.mem_filter, hlisting, listing_eq hr, List.mem_map] at hm
    obtain ⟨⟨name, hm, rfl⟩, hstale⟩ := hm
    obtain ⟨hn, hstarts⟩ := mem_namesIn_iff.1 hm
    obtain ⟨hkeep, htmp, hfile⟩ :=
      (isStale_pathIn (h.proper.isName hn).1 (h.resolve?_pathIn hn hr)).1 hstale
    exact ⟨name, rfl, hfile, hstarts, hkeep, htmp⟩
  · rintro ⟨name, rfl, ho⟩
    have hn := ho.isSome_node?
    exact mem_sweep_of_outdated h.searchable hc h.leads h.isDirectory h.validPath_searched
      (h.proper.isName hn).1 (h.resolve?_pathIn hn hr) ho

private theorem sorted_sweep (h : d.Lists directory l) (hc : '/' ∉ classPrefix.toList) :
    (sweep d directory classPrefix keep).1.Pairwise (· < ·) := by
  obtain ⟨hlisting, hr⟩ :=
    candidates_eq h.searchable hc h.leads h.isDirectory h.validPath_searched
  rw [sweep, hlisting, listing_eq hr]
  refine List.Pairwise.filter _ (List.pairwise_map.2 ?_)
  refine (pairwise_namesIn h.proper).imp_of_mem fun {a b} ha hb hab => ?_
  exact pathIn_lt (h.proper.isName (mem_namesIn_iff.1 ha).1).1.noSlash
    (h.proper.isName (mem_namesIn_iff.1 hb).1).1.noSlash hab

/-- A sweep removes the outdated files of its directory. -/
theorem sweeps_sweep (h : d.Lists directory l) (hc : '/' ∉ classPrefix.toList) (keep : String) :
    d.SameShape (sweep d directory classPrefix keep).2 ∧
      Sweeps d directory classPrefix keep l (sweep d directory classPrefix keep).1
        (sweep d directory classPrefix keep).2 := by
  have hr := (candidates_eq h.searchable hc h.leads h.isDirectory h.validPath_searched).2
  have hleads : ∀ name, Outdated d l classPrefix keep name →
      d.resolve? (pathIn (searched directory) name) = some (l ++ [name]) := fun name ho =>
    h.resolve?_pathIn ho.isSome_node? hr
  have hfile : ∀ p ∈ (sweep d directory classPrefix keep).1, ∀ k, d.resolve? p = some k →
      d.isDirectory k = false := by
    intro p hp k hk
    obtain ⟨name, rfl, ho⟩ := (mem_sweep_iff h hc).1 hp
    obtain ⟨content, hcontent⟩ := Option.isSome_iff_exists.1 ho.isFile
    rw [hleads name ho] at hk
    cases hk
    exact not_isDirectory_of_file? hcontent
  obtain ⟨hs, hn⟩ := foldl_remove?_eq hfile
  have hlocations : ∀ k, k ∈ (sweep d directory classPrefix keep).1.filterMap d.resolve? ↔
      ∃ name, Outdated d l classPrefix keep name ∧ k = l ++ [name] := by
    intro k
    rw [List.mem_filterMap]
    constructor
    · rintro ⟨p, hp, hk⟩
      obtain ⟨name, rfl, ho⟩ := (mem_sweep_iff h hc).1 hp
      rw [hleads name ho] at hk
      exact ⟨name, ho, (Option.some.inj hk).symm⟩
    · rintro ⟨name, ho, rfl⟩
      exact ⟨_, (mem_sweep_iff h hc).2 ⟨name, rfl, ho⟩, hleads name ho⟩
  refine ⟨hs, fun p => mem_sweep_iff h hc, hleads, sorted_sweep h hc, fun name ho => ?_, fun k hk => ?_⟩
  · exact (hn _).trans (if_pos ((hlocations _).2 ⟨name, ho, rfl⟩))
  · refine (hn k).trans (if_neg fun hm => ?_)
    obtain ⟨name, ho, he⟩ := (hlocations k).1 hm
    exact hk name ho he

namespace Sweeps

variable {paths : List String}

theorem node?_eq (h : Sweeps d directory classPrefix keep l paths e) (k : Location) :
    e.node? k = none ∨ e.node? k = d.node? k := by
  by_cases ho : ∃ name, Outdated d l classPrefix keep name ∧ k = l ++ [name]
  · obtain ⟨name, ho, rfl⟩ := ho
    exact .inl (h.gone name ho)
  · exact .inr (h.kept k fun name hn he => ho ⟨name, hn, he⟩)

theorem node?_keep (h : Sweeps d directory classPrefix keep l paths e) (m : Location) :
    e.node? (m ++ [keep]) = d.node? (m ++ [keep]) := by
  refine h.kept _ fun name ho he => ho.notKept ?_
  simpa using (List.append_inj' he rfl).2.symm

theorem not_outdated (h : Sweeps d directory classPrefix keep l paths e) :
    ¬ Outdated e l classPrefix keep name := by
  intro ho
  have hn := ho.isSome_node?
  rcases h.node?_eq (l ++ [name]) with he | he
  · rw [he] at hn
    cases hn
  · have hgone := h.gone name ⟨by rw [← file?_congr he]; exact ho.isFile, ho.starts, ho.notKept,
      ho.finished⟩
    rw [hgone] at hn
    cases hn

theorem lists (h : Sweeps d directory classPrefix keep l paths e) (hd : d.Lists directory l)
    (hs : d.SameShape e) (he : e.Proper) : e.Lists directory l := by
  refine ⟨he, (hs.resolve? _).trans hd.leads, (hs.directories l).trans hd.isDirectory, hd.searchable,
    fun name hn => hd.reaches name ?_⟩
  rcases h.node?_eq (l ++ [name]) with hk | hk
  · rw [hk] at hn
    cases hn
  · rwa [← hk]

end Sweeps

/-- A store whose disk only lost files reads what it read, or nothing. -/
theorem get?_of_lost {s : Store} (hs : s.disk.SameShape e)
    (hn : ∀ k, e.node? k = none ∨ e.node? k = s.disk.node? k) (key : String) :
    { s with disk := e }.get? key = none ∨ { s with disk := e }.get? key = s.get? key := by
  obtain ⟨d, cache⟩ := s
  cases cache with
  | none => exact .inl rfl
  | memory entries => exact .inr rfl
  | files root =>
    simp only [Store.get?, read?_eq, hs.resolve?]
    cases d.resolve? (Path.join root key) with
    | none => exact .inl rfl
    | some k =>
      rw [Option.bind_some, Option.bind_some]
      rcases hn k with hk | hk
      · exact .inl (by rw [file?, hk])
      · exact .inr (file?_congr hk)

theorem rendererRecord?_of_lost {o : Options} {s : Store} (hs : s.disk.SameShape e)
    (hn : ∀ k, e.node? k = none ∨ e.node? k = s.disk.node? k) :
    rendererRecord? o { s with disk := e } = none ∨
      rendererRecord? o { s with disk := e } = rendererRecord? o s := by
  rw [rendererRecord?, rendererRecord?, Store.getJson?, Store.getJson?]
  rcases get?_of_lost hs hn o.rendererKey with hk | hk
  · exact .inl (by rw [hk]; rfl)
  · exact .inr (by rw [hk])

theorem rendererRecord?_putJson {o : Options} {s : Store} {r : RendererRecord}
    {entries : Table ByteArray} (hm : (s.putJson o.rendererKey r.toJson).cache = .memory entries) :
    rendererRecord? o (s.putJson o.rendererKey r.toJson) = some r := by
  obtain ⟨d, cache⟩ := s
  cases cache with
  | none => cases hm
  | memory table =>
    rw [rendererRecord?, Store.getJson?_putJson rfl (RendererRecord.isPlain_toJson r),
      RendererRecord.ofJson?_toJson]
  | files root => cases hm

theorem Recorded.exists_name {a : Artifacts} {r : RendererRecord} (h : Recorded a r)
    (hc : '/' ∉ r.classPrefix.toList) :
    ∃ n, Path.IsName n ∧ rendererFileName r.className = String.ofList n := by
  obtain ⟨digits, hd, hs⟩ := a.renderer.snapshot.exists_digest
  exact ⟨_, Renderer.isName_name hc hd.alphanumeric (.inl rfl), by
    rw [h.named, hs, Renderer.rendererFileName_eq]⟩

section Tidy

variable {o : Options} {s : Store} {r : RendererRecord}

theorem tidy_eq (hr : rendererRecord? o s = some r) (hp : r.classPrefix ≠ "") :
    tidy o s =
      ((sweep s.disk o.cacheDir r.classPrefix (rendererFileName r.className)).1,
        { s with disk := (sweep s.disk o.cacheDir r.classPrefix (rendererFileName r.className)).2 }) := by
  rw [tidy, hr]
  simp only [if_neg hp]

/-- Tidying once more removes nothing, whether or not the record itself is still there. -/
theorem tidy_tidy (hr : rendererRecord? o s = some r) (hp : r.classPrefix ≠ "")
    (h : s.disk.Lists o.cacheDir l) (hc : '/' ∉ r.classPrefix.toList) :
    (tidy o (tidy o s).2).1 = [] := by
  obtain ⟨hs, hsweeps⟩ := sweeps_sweep h hc (rendererFileName r.className)
  rw [tidy_eq hr hp]
  rcases rendererRecord?_of_lost (o := o) hs hsweeps.node?_eq with hnone | hsame
  · rw [tidy, hnone]
  · have hproper := h.proper.foldl_remove?
      (sweep s.disk o.cacheDir r.classPrefix (rendererFileName r.className)).1
    rw [tidy_eq (hsame.trans hr) hp]
    refine List.eq_nil_iff_forall_not_mem.2 fun path hm => ?_
    obtain ⟨name, -, ho⟩ := (mem_sweep_iff (hsweeps.lists h hs hproper) hc).1 hm
    exact hsweeps.not_outdated ho

end Tidy

/-- A run that succeeds, with extensions or without, ends by publishing some formatter. -/
theorem publish_of_regenerateWith {hooks : Hooks (StateM Store)} {compile : Compiler} {o : Options}
    {b : Data} {s t : Store} {a : Artifacts}
    (h : (regenerateWith hooks compile o b).run s = (.ok a, t)) :
    ∃ f s', publish compile o f s' = (.ok a, t) := by
  unfold regenerateWith at h
  rw [StateT.run_bind] at h
  generalize (assemble hooks o b).run s = p at h
  obtain ⟨assembled, s'⟩ := p
  cases assembled with
  | error e => cases h
  | ok assembly => exact ⟨assembly.formatter, s', h⟩

/-- Such a run ends by writing the record of the renderer that it returns. -/
theorem recorded_of_regenerateWith {hooks : Hooks (StateM Store)} {o : Options} {b : Data}
    {s t : Store} {a : Artifacts}
    (h : (regenerateWith hooks Formatter.compile o b).run s = (.ok a, t)) :
    ∃ r, (∃ before : Store, t = before.putJson o.rendererKey r.toJson) ∧ Recorded a r := by
  obtain ⟨f, s', hp⟩ := publish_of_regenerateWith h
  obtain ⟨r, e, hc, -, rfl⟩ := saved_of_publish hp
  exact ⟨r, ⟨_, rfl⟩, recorded_of_composed hc⟩

/--
A run that succeeds, whatever extensions do, writes a record of its renderer. Tidying a store that has
this record removes exactly the outdated files of the cache directory: those directly in it whose
names start with the prefix on record, but for the current renderer and unfinished files. The class
prefix is a name here, and no path.
-/
theorem tidy_removes_outdated (hooks : Hooks (StateM Store)) (o : Options) (b : Data) (s t : Store)
    (a : Artifacts) (h : (regenerateWith hooks Formatter.compile o b).run s = (.ok a, t)) :
    ∃ r, (∃ before : Store, t = before.putJson o.rendererKey r.toJson) ∧ Recorded a r ∧
      (∀ entries, t.cache = .memory entries → rendererRecord? o t = some r) ∧
      ∀ (u : Store) (l : Location), rendererRecord? o u = some r → u.disk.Lists o.cacheDir l →
        '/' ∉ r.classPrefix.toList →
          Sweeps u.disk o.cacheDir r.classPrefix (rendererFileName a.renderer.className) l
            (tidy o u).1 (tidy o u).2.disk ∧
          (tidy o u).2.cache = u.cache ∧
          (tidy o u).2.disk.read? a.renderer.file = u.disk.read? a.renderer.file ∧
          (tidy o (tidy o u).2).1 = [] := by
  obtain ⟨r, ⟨before, rfl⟩, hr⟩ := recorded_of_regenerateWith h
  refine ⟨r, ⟨before, rfl⟩, hr, fun entries hm => ?_, fun u l hu hd hc => ?_⟩
  · exact rendererRecord?_putJson hm
  · obtain ⟨hs, hsweeps⟩ := sweeps_sweep hd hc (rendererFileName r.className)
    have htidy := tidy_eq hu hr.classPrefix
    rw [← hr.className]
    refine ⟨by rw [htidy]; exact hsweeps, by rw [htidy], ?_, tidy_tidy hu hr.classPrefix hd hc⟩
    obtain ⟨dir, hfile⟩ := hr.file
    obtain ⟨n, hn, hname⟩ := hr.exists_name hc
    rw [hname] at hs hsweeps htidy hfile
    rw [htidy, hfile]
    exact hs.read?_join hn hsweeps.node?_keep dir

def usedDisk : Disk where
  nodes := [(["cache"], .directory), (["cache", "Renderer_0.json"], .file .empty),
    (["cache", "Renderer_1.json.tmp"], .file .empty), (["cache", "other.json"], .file .empty)]

theorem lists_usedDisk : usedDisk.Lists "/cache" ["cache"] := by
  refine ⟨⟨by decide, by decide⟩, by decide, by decide,
    fun _ => by decide, fun name hn => ?_⟩
  obtain ⟨n, hm⟩ := (isSome_node?_iff (by simp)).1 hn
  simp [usedDisk] at hm
  rcases hm with ⟨rfl, -⟩ | ⟨rfl, -⟩ | ⟨rfl, -⟩ <;> decide

theorem outdated_usedDisk_iff {keep name : String} (hk : keep ≠ "Renderer_0.json") :
    Outdated usedDisk ["cache"] "Renderer_" keep name ↔ name = "Renderer_0.json" := by
  constructor
  · intro h
    obtain ⟨n, hm⟩ := (isSome_node?_iff (by simp)).1 h.isSome_node?
    have hstarts := h.starts
    have hfinished := h.finished
    simp [usedDisk] at hm
    rcases hm with ⟨rfl, -⟩ | ⟨rfl, -⟩ | ⟨rfl, -⟩
    · rfl
    · exact absurd (by decide) hfinished
    · exact absurd hstarts (by decide)
  · rintro rfl
    exact ⟨by decide, by decide, hk.symm, by decide⟩

/-- After the board was published, the old renderer is the one that tidying removes. -/
theorem tidy_removes_outdated_example : ∃ a t r u,
    regenerate Formatter.compile exampleOptions (.ofRows [] [] [] []) ⟨{}, .memory .empty⟩ = (.ok a, t) ∧
      rendererRecord? exampleOptions u = some r ∧ u.disk.Lists exampleOptions.cacheDir ["cache"] ∧
      '/' ∉ r.classPrefix.toList ∧
      ∀ path, path ∈ (tidy exampleOptions u).1 ↔ path = "/cache/Renderer_0.json" := by
  obtain ⟨a, ha⟩ := regenerate_plain (o := exampleOptions) (s := ⟨{}, .memory .empty⟩) [] [] [] []
    (List.forall_mem_nil _) (List.forall_mem_nil _) (by decide) hosts_example
  rcases regenerate_cases (o := exampleOptions) (s := ⟨{}, .memory .empty⟩) (by decide) hosts_example
    (.ofRows [] [] [] []) with ⟨a', e, hrun, hproduced, hs, hread⟩ | ⟨e, hrun⟩
  · have hholds := holds_published (o := exampleOptions) (b := .ofRows [] [] [] [])
      (s := ⟨{}, .memory .empty⟩) rfl (by decide) hproduced hread
      (Disk.Hosts.prepared_of_sameShape hosts_example hs)
    obtain ⟨-, entries, hm⟩ := published_disk (o := exampleOptions) (a := a')
      (s := ⟨{}, .memory .empty⟩) rfl (helper? exampleOptions (.ofRows [] [] [] [])) e
    obtain ⟨r, -, hr, hrecord, htidy⟩ := tidy_removes_outdated .none exampleOptions
      (.ofRows [] [] [] []) ⟨{}, .memory .empty⟩ _ a' hrun
    have hp : r.classPrefix = exampleOptions.classPrefix := by
      rw [Option.some.inj ((hrecord entries hm).symm.trans hholds.record)]
    have hc : '/' ∉ r.classPrefix.toList := by
      rw [hp]
      decide
    have hu : rendererRecord? exampleOptions ⟨usedDisk, .memory entries⟩ = some r := by
      rw [← hrecord entries hm]
      exact Store.getJson?_congr hm hm.symm
    refine ⟨a', _, r, ⟨usedDisk, .memory entries⟩, hrun, hu, lists_usedDisk, hc, fun path => ?_⟩
    rw [(htidy _ _ hu lists_usedDisk hc).1.mem_iff, hp]
    have hsearched : searched "/cache" = "/cache" := by decide
    have hpath : pathIn "/cache" "Renderer_0.json" = "/cache/Renderer_0.json" := by decide
    rw [show exampleOptions.cacheDir = "/cache" from rfl, hsearched]
    have hkeep : rendererFileName a'.renderer.className ≠ "Renderer_0.json" := by
      obtain ⟨digits, hd, hs⟩ := a'.renderer.snapshot.exists_digest
      intro he
      have hl := congrArg String.length he
      rw [hproduced.className, hs, rendererFileName, String.length_append, String.length_append,
        String.length_ofList, hd.length] at hl
      have hshort : "Renderer_0.json".length = 15 := by decide
      omega
    constructor
    · rintro ⟨name, rfl, ho⟩
      rw [(outdated_usedDisk_iff hkeep).1 ho, hpath]
    · rintro rfl
      exact ⟨_, hpath.symm, (outdated_usedDisk_iff hkeep).2 rfl⟩
  · rw [hrun] at ha
    cases ha

theorem read?_of_mem_sweep (h : path ∈ (sweep d directory classPrefix keep).1) :
    (sweep d directory classPrefix keep).2.read? path = none := by
  have hread : ∀ p ∈ (sweep d directory classPrefix keep).1, (d.read? p).isSome := by
    intro p hp
    have hstale := (List.mem_filter.1 hp).2
    rw [isStale, Bool.and_eq_true] at hstale
    exact hstale.2
  have hfile : ∀ p ∈ (sweep d directory classPrefix keep).1, ∀ k, d.resolve? p = some k →
      d.isDirectory k = false := by
    intro p hp k hk
    have hr := hread p hp
    rw [read?_eq, hk, Option.bind_some] at hr
    obtain ⟨content, hc⟩ := Option.isSome_iff_exists.1 hr
    exact not_isDirectory_of_file? hc
  obtain ⟨hs, hn⟩ := foldl_remove?_eq hfile
  change Disk.read? (List.foldl _ d (sweep d directory classPrefix keep).1) path = none
  rw [read?_eq, hs.resolve?]
  cases hk : d.resolve? path with
  | none => rfl
  | some k =>
    rw [Option.bind_some, file?, hn, if_pos (List.mem_filterMap.2 ⟨path, h, hk⟩)]

/-- A board whose class prefix leads to a directory below the cache directory. -/
def nestedOptions : Options := { exampleOptions with classPrefix := "sub/r_" }

theorem makeDirectory_nested : ({} : Disk).makeDirectory (Path.holder "/cache/sub") =
    (⟨[(["cache", "sub"], .directory), (["cache"], .directory)], []⟩, true) := by
  have hh : Path.holder "/cache/sub" = "/cache/sub" := by decide
  rw [hh]
  decide +kernel

theorem prepared_nested : ({} : Disk).prepared "/cache/sub" =
    ⟨[(["cache", "sub"], .directory), (["cache"], .directory)], []⟩ := by
  rw [Disk.prepared, makeDirectory_nested]

theorem hosts_nested : ({} : Disk).Hosts "/cache/sub" "r_" :=
  Disk.hosts_of_makeDirectory (by decide) (by decide) (by decide) makeDirectory_nested (by decide)
    (l := ["cache", "sub"]) (by decide) fun n => by simp [Disk.isDirectory, Disk.node?]

/-- A sweep for such a prefix looks below the directory in which the renderers are. -/
theorem sweep_nested (d : Disk) (keep : String) :
    sweep d "/cache" "sub/r_" keep = sweep d "/cache/sub" "r_" keep := by
  have htext : "/cache" ++ "/" ++ "sub/r_" = "/cache/sub" ++ "/" ++ "r_" := by decide
  rw [sweep, sweep, candidates, candidates, htext]

private theorem join_nested {digits : List Char} (hd : IsDigest digits) :
    Path.join "/cache" (rendererFileName ("sub/r_" ++ String.ofList digits)) =
      Path.join "/cache/sub" (String.ofList (Renderer.name "r_" digits Renderer.json)) := by
  have hname : Path.IsName (Renderer.name "r_" digits Renderer.json) :=
    Renderer.isName_name (by decide) hd.alphanumeric (.inl rfl)
  have hd : Path.directoryText "/cache/sub" = "/cache/sub/".toList := by decide
  rw [← String.toList_inj, Path.toList_join hname, hd, Renderer.rendererFileName_eq, Path.join,
    if_neg (by simp [Renderer.name]), if_neg (by decide)]
  simp [Renderer.name]

private theorem mem_sweep_nested {digits : List Char} (hd : IsDigest digits)
    (hs : (({} : Disk).prepared "/cache/sub").SameShape d)
    (hread : (d.read? (Path.join "/cache/sub"
      (String.ofList (Renderer.name "r_" digits Renderer.json)))).isSome)
    (hkeep : '/' ∈ keep.toList) :
    Path.join "/cache/sub" (String.ofList (Renderer.name "r_" digits Renderer.json)) ∈
      (sweep d "/cache/sub" "r_" keep).1 := by
  have hleads : d.resolve? "/cache/sub" = some ["cache", "sub"] := by
    rw [hs.resolve?, prepared_nested]
    decide
  have hdirectory : d.isDirectory ["cache", "sub"] = true := by
    rw [hs.directories, prepared_nested]
    decide
  have hsearched : searched "/cache/sub" = "/cache/sub" := by decide
  have hname : Path.IsName (Renderer.name "r_" digits Renderer.json) :=
    Renderer.isName_name (by decide) hd.alphanumeric (.inl rfl)
  generalize hcurrent : Renderer.name "r_" digits Renderer.json = current at hname hread ⊢
  have hpath : pathIn "/cache/sub" (String.ofList current) =
      Path.join "/cache/sub" (String.ofList current) := pathIn_of_ne (by decide) _
  rw [read?_eq] at hread
  obtain ⟨content, hcontent⟩ := Option.isSome_iff_exists.1 hread
  obtain ⟨m, hm, hfile⟩ := Option.bind_eq_some_iff.1 hcontent
  obtain ⟨-, -, rfl⟩ := ((opens_of_resolve? hleads hdirectory).resolve?_join hname).1 hm
  have ho : Outdated d ["cache", "sub"] "r_" keep (String.ofList current) := by
    constructor
    case isFile =>
      rw [hfile]
      rfl
    case starts => exact ⟨digits ++ '.' :: Renderer.json, by simp [← hcurrent, Renderer.name]⟩
    case notKept =>
      intro he
      rw [← he, String.toList_ofList] at hkeep
      exact hname.noSlash hkeep
    case finished =>
      rw [← hcurrent, Renderer.extension?_name (by decide) hd]
      decide
  have hmem := mem_sweep_of_outdated (fun _ => by decide) (by decide) hleads hdirectory
    (by decide) (by rwa [String.toList_ofList]) (by rw [hsearched, hpath, hm]) ho
  rwa [hsearched, hpath] at hmem

/-- With such a prefix a renderer is not recognized by its class, and tidying removes the current one. -/
theorem nestedPrefix_loses_renderer : ∃ a t,
    regenerate Formatter.compile nestedOptions (.ofRows [] [] [] []) ⟨{}, .memory .empty⟩ = (.ok a, t) ∧
      (t.disk.read? a.renderer.file).isSome ∧ a.renderer.file ∈ (tidy nestedOptions t).1 ∧
      (tidy nestedOptions t).2.disk.read? a.renderer.file = none := by
  obtain ⟨a, r, hc, hp, hfile⟩ := composed_plain (o := nestedOptions) [] [] [] []
    (List.forall_mem_nil _) (List.forall_mem_nil _) (by decide)
  have hr := recorded_of_composed hc
  obtain ⟨digits, hd, hdigest⟩ := a.renderer.snapshot.exists_digest
  have hclass : r.className = "sub/r_" ++ String.ofList digits := by
    rw [hr.named, hp, hdigest]
    rfl
  rw [← hr.className, hclass] at hfile
  have hplace := hfile.trans (join_nested hd)
  obtain ⟨e, hsave, hs, hread⟩ := hosts_nested.save_eq_ok_of_file hd hplace
  have hrun : regenerate Formatter.compile nestedOptions (.ofRows [] [] [] []) ⟨{}, .memory .empty⟩ =
      (.ok a, deposit nestedOptions a r ⟨e, .memory .empty⟩) := by
    rw [regenerate_ofRows, publish_eq, hc]
    simp only [hsave]
  have hdisk : (deposit nestedOptions a r ⟨e, .memory .empty⟩).disk = e := rfl
  have hrecord : rendererRecord? nestedOptions (deposit nestedOptions a r ⟨e, .memory .empty⟩) = some r :=
    rendererRecord?_putJson rfl
  have hmem : a.renderer.file ∈ (sweep e "/cache" r.classPrefix (rendererFileName r.className)).1 := by
    rw [hp, show nestedOptions.classPrefix = "sub/r_" from rfl, sweep_nested, hplace]
    refine mem_sweep_nested hd hs (by rw [← hplace, hread]; rfl) ?_
    simp [rendererFileName, hclass]
  refine ⟨a, _, hrun, by rw [hdisk, hread]; rfl, ?_⟩
  rw [tidy_eq hrecord hr.classPrefix, hdisk]
  exact ⟨hmem, read?_of_mem_sweep hmem⟩

end Board
end BoardMarkup
