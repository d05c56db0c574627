import BoardMarkup.Proofs.Board.Publication
import BoardMarkup.Proofs.Board.Tidy
import BoardMarkup.Proofs.Formatter.Artifact
import BoardMarkup.Proofs.Settings.Config
import BoardMarkup.Proofs.Store

/-! What a store holds while a board is changed, published and tidied any number of times. -/
namespace BoardMarkup.Board

open Json

namespace RendererRecord

theorem isPlain_toJson (r : RendererRecord) : r.toJson.isPlain = true := by
  obtain ⟨className, classPrefix, censor⟩ := r
  rw [toJson, isPlain_record]
  cases censor <;> split <;> simp [Censor.WordList.isPlain_toJson]

private theorem asOption?_words (l : Censor.WordList) :
    asOption? Censor.WordList.ofJson? l.toJson = some (some l) := by
  have h := Censor.WordList.ofJson?_toJson l
  unfold Censor.WordList.toJson at h ⊢
  rw [record, asOption?, ← record, h]
  · rfl
  · intro he
    cases he

theorem ofJson?_toJson (r : RendererRecord) : ofJson? r.toJson = some r := by
  obtain ⟨className, classPrefix, censor⟩ := r
  rw [toJson, ofJson?]
  by_cases hp : classPrefix = "" <;> cases censor <;>
    simp [hp, record, slots?, field?, Slot.required?, Slot.defaulted?, asText?_text,
      asOption?_words]

end RendererRecord

/-- The censored words that are stored with the renderer of a board. -/
def helper? (o : Options) (b : Data) : Option Censor.WordList :=
  match furnish o b .new with
  | .ok a => a.formatter.detachCensor.1
  | .error _ => none

theorem exists_ofRows {o : Options} {b : Data} {f : Formatter} {a : Assembly}
    (h : furnish o b f = .ok a) : ∃ styles bbcodes smilies words,
      b = .ofRows styles bbcodes smilies words := by
  obtain ⟨styles, bbcodes, smilies, words⟩ := b
  cases styles with
  | error e => cases h
  | ok styles =>
    cases bbcodes with
    | error e => cases h
    | ok bbcodes =>
      cases smilies with
      | error e => cases h
      | ok smilies =>
        cases words with
        | error e => cases h
        | ok words => exact ⟨styles, bbcodes, smilies, words, rfl⟩

theorem helper?_ofRows (o : Options) (styles : List StyleRow) (bbcodes : List BBCodeRow)
    (smilies : List SmileyRow) (words : List WordRow) :
    helper? o (.ofRows styles bbcodes smilies words) =
      (finish (registered o styles bbcodes).formatter smilies words).detachCensor.1 := by
  rw [helper?, furnish_ofRows]
  rfl

/-- What a run that succeeds returns: a renderer whose class has the digest of its snapshot. -/
structure Produced (o : Options) (a : Artifacts) : Prop where
  className : a.renderer.className = o.classPrefix ++ a.renderer.snapshot.digest
  file : a.renderer.file = Path.join o.cacheDir (rendererFileName a.renderer.className)

theorem Produced.exists_name {o : Options} {a : Artifacts} (h : Produced o a)
    (hp : '/' ∉ o.classPrefix.toList) :
    ∃ n, Path.IsName n ∧ rendererFileName a.renderer.className = String.ofList n := by
  obtain ⟨digits, hd, hs⟩ := a.renderer.snapshot.exists_digest
  refine ⟨_, Renderer.isName_name hp hd.alphanumeric (.inl rfl), ?_⟩
  rw [h.className, hs, Renderer.rendererFileName_eq]

/-- Whatever the data is, a run publishes all of it or changes nothing. -/
theorem regenerate_cases {o : Options} {s : Store} (hp : o.classPrefix ≠ "")
    (hd : s.disk.Hosts o.cacheDir o.classPrefix) (b : Data) :
    (∃ a e, regenerate Formatter.compile o b s = (.ok a, published o a (helper? o b) e s) ∧
      Produced o a ∧ (s.disk.prepared o.cacheDir).SameShape e ∧
      e.read? a.renderer.file = some (a.renderer.snapshot.fileText a.renderer.className).toUTF8) ∨
    ∃ e, regenerate Formatter.compile o b s = (.error e, s) := by
  cases hf : furnish o b .new with
  | error e => exact .inr ⟨.query e, by rw [regenerate_eq, hf]⟩
  | ok a =>
    obtain ⟨styles, bbcodes, smilies, words, rfl⟩ := exists_ofRows hf
    have hs : (configured o).SameSettings (registered o styles bbcodes).formatter :=
      registered_settings
    rw [regenerate_ofRows, helper?_ofRows]
    rcases publish_cases hs filtersPresent_registered contains_censorTag_registered hp hd smilies
      words with ⟨a, e, ha, hc, hshape, hread, -⟩ | ⟨k, t, p, -, -, herror⟩
    · obtain ⟨_, _, _, _, hdetached⟩ :=
        detachCensor_finish (board_settings hs).2.2.2 contains_censorTag_registered smilies words
      have hclass := hc.className
      rw [hdetached] at hclass
      refine .inl ⟨a, e, ha, ⟨?_, hc.file⟩, hshape, hread⟩
      rw [hclass, ← (board_settings hs).2.1]
    · exact .inr ⟨_, herror⟩

/--
A store holds what a run produced from data: the record, the parser, and the renderer's file in a
directory that is there.
-/
structure Holds (o : Options) (b : Data) (a : Artifacts) (s : Store) : Prop extends Produced o a where
  record : rendererRecord? o s = some ⟨a.renderer.className, o.classPrefix, helper? o b⟩
  parser : s.getJson? Parser.ofJson? o.parserKey = some a.parser
  content : s.disk.read? a.renderer.file =
    some (a.renderer.snapshot.fileText a.renderer.className).toUTF8
  made : s.disk.prepared o.cacheDir = s.disk

section Published

variable {o : Options} {b : Data} {a : Artifacts} {s : Store} {entries : Table ByteArray}

theorem published_disk (hm : s.cache = .memory entries) (censor : Option Censor.WordList) (e : Disk) :
    (published o a censor e s).disk = e ∧ ∃ t, (published o a censor e s).cache = .memory t := by
  rw [published, Store.putJson_memory (s := { s with disk := e }) hm, Store.putJson_memory rfl]
  exact ⟨rfl, _, rfl⟩

theorem holds_published (hm : s.cache = .memory entries) (hk : o.parserKey ≠ o.rendererKey)
    (ha : Produced o a) {e : Disk} (hread : e.read? a.renderer.file =
      some (a.renderer.snapshot.fileText a.renderer.className).toUTF8)
    (he : e.prepared o.cacheDir = e) :
    Holds o b a (published o a (helper? o b) e s) := by
  have hparser : ({ s with disk := e }.putJson o.parserKey a.parser.toJson).cache =
      .memory (entries.insert o.parserKey a.parser.toJson.write.toUTF8) := by
    rw [Store.putJson_memory (s := { s with disk := e }) hm]
  refine ⟨ha, ?_, ?_, ?_, ?_⟩
  · rw [rendererRecord?, published, Store.getJson?_putJson hparser (RendererRecord.isPlain_toJson _),
      RendererRecord.ofJson?_toJson]
  · rw [published, Store.getJson?_putJson_ne hparser hk,
      Store.getJson?_putJson (s := { s with disk := e }) hm a.parser.isPlain_toJson,
      Parser.ofJson?_toJson]
  · rw [(published_disk hm _ e).1]
    exact hread
  · rw [(published_disk hm _ e).1]
    exact he

/-- Tidying keeps all that the last run published. -/
theorem Holds.tidy (h : Holds o b a s) (hm : s.cache = .memory entries)
    (hd : s.disk.Hosts o.cacheDir o.classPrefix) (hw : s.disk.Rooted s.disk.workingDirectory) :
    Holds o b a (tidy o s).2 := by
  obtain ⟨hcache, hs, hkeep⟩ := tidy_keeps o hw
  obtain ⟨n, hn, hname⟩ := h.exists_name hd.noSlash
  have hn' := hkeep _ h.record
  have hcontent := h.content
  simp only [hname] at hn'
  rw [h.file, hname] at hcontent
  refine ⟨h.toProduced, ?_, ?_, ?_, ?_⟩
  · rw [rendererRecord?, Store.getJson?_congr hm hcache]
    exact h.record
  · rw [Store.getJson?_congr hm hcache]
    exact h.parser
  · rw [h.file, hname, hs.read?_join hn hn']
    exact hcontent
  · exact hd.prepared_of_sameShape (h.made.symm ▸ hs)

end Published

inductive Action where
  | change (b : Data)
  | regenerate
  | invalidate
  | tidy

/-- A board's data and its store, with the runs that there were and the data of each, the last first. -/
structure State where
  data : Data
  store : Store
  runs : List (Data × Except PublishError Artifacts) := []

namespace State

def after (w : State) (r : Except PublishError Artifacts × Store) : State :=
  { w with store := r.2, runs := (w.data, r.1) :: w.runs }

def step (o : Options) (w : State) : Action → State
  | .change b => { w with data := b }
  | .regenerate => w.after (Board.regenerate Formatter.compile o w.data w.store)
  | .invalidate => w.after (Board.invalidate Formatter.compile o w.data w.store)
  | .tidy => { w with store := (Board.tidy o w.store).2 }

def run (o : Options) (w : State) (actions : List Action) : State := actions.foldl (step o) w

def last? (w : State) : Option (Data × Artifacts) :=
  w.runs.findSome? fun (b, r) => r.toOption.map (b, ·)

/-- What is true of a board at any time: the store can be written, and holds what the last run published. -/
structure Sound (o : Options) (w : State) : Prop where
  memory : ∃ entries, w.store.cache = .memory entries
  hosts : w.store.disk.Hosts o.cacheDir o.classPrefix
  rooted : w.store.disk.Rooted w.store.disk.workingDirectory
  unpublished : w.last? = none → rendererRecord? o w.store = none
  published : ∀ b a, w.last? = some (b, a) → Holds o b a w.store

theorem last?_after_ok (w : State) (a : Artifacts) (s : Store) :
    (w.after (.ok a, s)).last? = some (w.data, a) := rfl

variable {o : Options} {w : State}

private theorem mem_runs_run {p : Data × Except PublishError Artifacts} (h : p ∈ w.runs)
    (actions : List Action) : p ∈ (w.run o actions).runs := by
  induction actions generalizing w with
  | nil => exact h
  | cons action actions ih =>
    refine ih ?_
    cases action with
    | change b => exact h
    | regenerate => exact List.mem_cons_of_mem _ h
    | invalidate => exact List.mem_cons_of_mem _ h
    | tidy => exact h

theorem regenerate_mem_runs (o : Options) (w : State) (actions : List Action) :
    (w.data, (Board.regenerate Formatter.compile o w.data w.store).1) ∈
      (w.run o (.regenerate :: actions)).runs :=
  mem_runs_run List.mem_cons_self actions

theorem last?_isSome_iff : w.last?.isSome ↔ ∃ b a, (b, .ok a) ∈ w.runs := by
  rw [last?, List.findSome?_isSome_iff]
  constructor
  · rintro ⟨⟨b, r⟩, hm, hr⟩
    cases r with
    | error e => cases hr
    | ok a => exact ⟨b, a, hm⟩
  · rintro ⟨b, a, hm⟩
    exact ⟨(b, .ok a), hm, rfl⟩

namespace Sound

theorem isSome_iff (h : w.Sound o) : (rendererRecord? o w.store).isSome ↔ w.last?.isSome := by
  cases hl : w.last? with
  | none => simp [h.unpublished hl]
  | some p => simp [(h.published p.1 p.2 hl).record]

/-- A run that succeeds is the one that the store holds from then on; one that fails changes nothing. -/
theorem after (h : w.Sound o) (hp : o.classPrefix ≠ "") (hk : o.parserKey ≠ o.rendererKey) :
    (w.after (Board.regenerate Formatter.compile o w.data w.store)).Sound o := by
  obtain ⟨entries, hm⟩ := h.memory
  rcases regenerate_cases hp h.hosts w.data with ⟨a, e, hr, ha, hs, hread⟩ | ⟨e, hr⟩
  · obtain ⟨hdisk, hmemory⟩ := published_disk (o := o) (a := a) hm (helper? o w.data) e
    -- the first run makes the directory, so the disk keeps its directories but may have more
    have hkeeps := (Disk.makeDirectory_keeps w.store.disk (Path.holder o.cacheDir)).trans hs.keeps
    rw [hr]
    refine ⟨hmemory, ?_, ?_, fun hl => ?_, fun b a' hl => ?_⟩
    · rw [State.after, hdisk]
      exact h.hosts.of_sameShape hs
    · rw [State.after, hdisk]
      exact h.rooted.workingDirectory_mono hkeeps
    · rw [last?_after_ok] at hl
      cases hl
    · rw [last?_after_ok] at hl
      cases hl
      exact holds_published hm hk ha hread (h.hosts.prepared_of_sameShape hs)
  · rw [hr]
    exact ⟨h.memory, h.hosts, h.rooted, h.unpublished, h.published⟩

/-- Without a record tidying does nothing; with one the directory of renderers is there. -/
theorem tidy (h : w.Sound o) : (w.step o .tidy).Sound o := by
  obtain ⟨entries, hm⟩ := h.memory
  cases hl : w.last? with
  | none =>
    have hnone := h.unpublished hl
    have hw : w.step o .tidy = w := by rw [State.step, Board.tidy, hnone]
    rw [hw]
    exact h
  | some p =>
    obtain ⟨hcache, hs, -⟩ := tidy_keeps o h.rooted
    have hp := h.published p.1 p.2 hl
    refine ⟨⟨entries, hcache.trans hm⟩, h.hosts.of_sameShape (hp.made.symm ▸ hs),
      h.rooted.workingDirectory_mono hs.keeps, fun hn => ?_,
      fun b a hl => (h.published b a hl).tidy hm h.hosts h.rooted⟩
    rw [show (w.step o .tidy).last? = w.last? from rfl, hl] at hn
    cases hn

theorem step (h : w.Sound o) (hp : o.classPrefix ≠ "") (hk : o.parserKey ≠ o.rendererKey)
    (action : Action) : (w.step o action).Sound o := by
  cases action with
  | change b => exact ⟨h.memory, h.hosts, h.rooted, h.unpublished, h.published⟩
  | regenerate => exact h.after hp hk
  | invalidate => exact h.after hp hk
  | tidy => exact h.tidy

theorem run (h : w.Sound o) (hp : o.classPrefix ≠ "") (hk : o.parserKey ≠ o.rendererKey)
    (actions : List Action) : (w.run o actions).Sound o := by
  induction actions generalizing w with
  | nil => exact h
  | cons action actions ih => exact ih (h.step hp hk action)

end Sound

/--
A record is cached just when some run succeeded. It, the parser and the renderer's file are then those
of the last run that did. A run that fails now changes nothing.
-/
structure Consistent (o : Options) (w : State) : Prop where
  recorded : (rendererRecord? o w.store).isSome ↔ ∃ b a, (b, .ok a) ∈ w.runs
  record : ∀ b a, w.last? = some (b, a) →
    rendererRecord? o w.store = some ⟨a.renderer.className, o.classPrefix, helper? o b⟩
  parser : ∀ b a, w.last? = some (b, a) →
    w.store.getJson? Parser.ofJson? o.parserKey = some a.parser
  file : ∀ b a, w.last? = some (b, a) → ∃ content,
    w.store.disk.read? (Path.join o.cacheDir (rendererFileName a.renderer.className)) = some content ∧
      (ofBytes? content).bind Snapshot.ofJson? = some a.renderer.snapshot
  unchanged : ∀ e, (Board.regenerate Formatter.compile o w.data w.store).1 = .error e →
    (Board.regenerate Formatter.compile o w.data w.store).2 = w.store

theorem Sound.consistent (h : w.Sound o) (hp : o.classPrefix ≠ "") : w.Consistent o := by
  refine ⟨h.isSome_iff.trans last?_isSome_iff, fun b a hl => (h.published b a hl).record,
    fun b a hl => (h.published b a hl).parser, fun b a hl => ?_, fun e he => ?_⟩
  · have hb := h.published b a hl
    exact ⟨_, hb.file ▸ hb.content, a.renderer.snapshot.read_fileText a.renderer.className⟩
  · rcases regenerate_cases hp h.hosts w.data with ⟨a, d, hr, -⟩ | ⟨e', hr⟩
    · rw [hr] at he
      cases he
    · rw [hr]

end State

/--
With valid settings, a cache in memory and a directory for renderers, a board is consistent after any
number of changes of its data, runs and tidyings in any order.
-/
theorem run_consistent (c : Settings.Config) (hc : c.validate = .ok ()) (b : Data) (s : Store)
    (entries : Table ByteArray) (hm : s.cache = .memory entries)
    (hnone : rendererRecord? c.options s = none) (hd : s.disk.Hosts c.cacheDir c.classPrefix)
    (hw : s.disk.Rooted s.disk.workingDirectory) (actions : List Action) :
    (State.run c.options ⟨b, s, []⟩ actions).Consistent c.options := by
  obtain ⟨hkeys, hclass⟩ := Settings.Config.names_of_validate hc
  have hstart : (State.mk b s []).Sound c.options :=
    ⟨⟨entries, hm⟩, hd, hw, fun _ => hnone, fun _ _ hl => by cases hl⟩
  exact (hstart.run hclass hkeys actions).consistent hclass

def exampleConfig : Settings.Config :=
  ⟨"/cache", "parser", "renderer", "Renderer_", "http://localhost", "images/smilies", none⟩

def brokenData : Data := { styles := .error ⟨.unavailable, "styles", none⟩ }

/-- A run that succeeds, one that fails and a tidying leave a record, and a consistent board. -/
theorem run_consistent_example : exampleConfig.validate = .ok () ∧
    ({} : Disk).Hosts exampleConfig.cacheDir exampleConfig.classPrefix ∧ ({} : Disk).Rooted [] ∧
      rendererRecord? exampleConfig.options ⟨{}, .memory .empty⟩ = none ∧
      (State.run exampleConfig.options ⟨exampleBoard, ⟨{}, .memory .empty⟩, []⟩
        [.regenerate, .change brokenData, .invalidate, .tidy]).Consistent exampleConfig.options ∧
      (rendererRecord? exampleConfig.options
        (State.run exampleConfig.options ⟨exampleBoard, ⟨{}, .memory .empty⟩, []⟩
          [.regenerate, .change brokenData, .invalidate, .tidy]).store).isSome := by
  have hvalid : exampleConfig.validate = .ok () := by decide
  have hrooted : ({} : Disk).Rooted [] := Disk.rooted_nil _
  have hconsistent := run_consistent exampleConfig hvalid exampleBoard ⟨{}, .memory .empty⟩
    .empty rfl rfl hosts_example hrooted [.regenerate, .change brokenData, .invalidate, .tidy]
  refine ⟨hvalid, hosts_example, hrooted, rfl, hconsistent, hconsistent.recorded.2 ?_⟩
  obtain ⟨a, ha⟩ : ∃ a, (regenerate Formatter.compile exampleConfig.options exampleBoard
      ⟨{}, .memory .empty⟩).1 = .ok a := regenerate_exampleBoard hosts_example
  have hrun := State.regenerate_mem_runs exampleConfig.options
    ⟨exampleBoard, ⟨{}, .memory .empty⟩, []⟩ [.change brokenData, .invalidate, .tidy]
  rw [ha] at hrun
  exact ⟨_, a, hrun⟩

end BoardMarkup.Board
