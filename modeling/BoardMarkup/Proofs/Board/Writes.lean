import BoardMarkup.Proofs.Board.Composition
import BoardMarkup.Proofs.Board.LifeCycle
import BoardMarkup.Proofs.Store.Files

/-! The files that a run writes when the cache is in files, and what can be read of them afterwards. -/
namespace BoardMarkup

open Disk

namespace Store

def keyPaths (root key : String) : List String :=
  [Path.join root key, Path.withExtension (Path.join root key) "tmp"]

variable {d : Disk} {s : Store} {root key : String} {content : ByteArray}

/-- A write that succeeds replaces a file, whatever the key is. -/
theorem replaces_of_putFileSucceeds (h : putFileSucceeds d root key content = true) :
    d.Replaces (putFile d root key content) (Path.join root key)
      (Path.withExtension (Path.join root key) "tmp") content := by
  unfold putFileSucceeds at h
  unfold putFile
  cases hp : Path.parent? (Path.join root key) with
  | none =>
    simp only [hp] at h
    cases h
  | some parent =>
    simp only [hp] at h ⊢
    cases hm : d.makeDirectory parent with
    | mk f made =>
      rw [hm] at h
      cases made with
      | false => cases h
      | true =>
        have hreplace : (d.makeDirectory parent).1.replace (Path.join root key)
            (Path.withExtension (Path.join root key) "tmp") content =
              ((f.replace (Path.join root key) (Path.withExtension (Path.join root key) "tmp") content).1,
                true) := by
          rw [hm]
          exact Prod.ext rfl h
        exact replaces_of_replace hreplace

theorem putFileSucceeds_of_sameShape {e : Disk} {m l : Location} (hs : d.SameShape e)
    (hk : Path.IsName key.toList) (hmade : d.makeDirectory (Path.holder root) = (d, true))
    (hm : d.resolve? (Path.join root key) = some m) (hmd : d.isDirectory m = false)
    (hl : d.resolve? (Path.join root (temporary key)) = some l) (hld : d.isDirectory l = false)
    (content : ByteArray) :
    putFileSucceeds e root key content = true ∧ d.SameShape (putFile e root key content) := by
  have hmade' := makeDirectory_of_keeps hmade hs.keeps
  obtain ⟨f, hf, hsf, -⟩ := replace_eq ((hs.resolve? _).trans hm) ((hs.resolve? _).trans hl)
    ((hs.directories m).trans hmd) ((hs.directories l).trans hld) content
  rw [putFile_eq_replace hk hmade', hf]
  refine ⟨?_, hs.trans hsf⟩
  unfold putFileSucceeds
  simp only [parent?_join_key hk, withExtension_join_tmp hk, hmade', hf]

theorem getJson?_files {α : Type} (f : Json → Option α) (h : s.cache = .files root) (key : String) :
    s.getJson? f key = (s.disk.read? (Path.join root key)).bind fun c => (Json.ofBytes? c).bind f := by
  rw [getJson?, get?, h]
  rfl

theorem getJson?_on {α : Type} (f : Json → Option α) (h : s.cache = .files root) (e : Disk) (key : String) :
    { s with disk := e }.getJson? f key =
      (e.read? (Path.join root key)).bind fun c => (Json.ofBytes? c).bind f :=
  getJson?_files (s := { s with disk := e }) f h key

theorem putJson_files (h : s.cache = .files root) (key : String) (v : Json) :
    s.putJson key v = ⟨putFile s.disk root key v.write.toUTF8, .files root⟩ := by
  rw [putJson, putText, put, h]

end Store

theorem Parser.ofJson?_of_missing {fields : List (Option String × Json)}
    (h : Json.field? fields "bbcodes" = some .missing) : Parser.ofJson? (.object fields) = none := by
  rw [Parser.ofJson?, Json.slots?]
  split
  · rw [List.mapM_cons, h]
    generalize List.mapM (Json.field? fields) _ = rest
    cases rest with
    | none => rfl
    | some slots =>
      dsimp only [Bind.bind, Option.bind, Pure.pure]
      split
      · next heq =>
        cases heq
        rfl
      · rfl
  · rfl

namespace Board

open Store

def recordOf (o : Options) (b : Data) (a : Artifacts) : RendererRecord :=
  ⟨a.renderer.className, o.classPrefix, helper? o b⟩

/-- What a run puts in the cache. -/
def puts (o : Options) (b : Data) (a : Artifacts) : List Request :=
  [.put o.parserKey a.parser.toJson.write.toUTF8,
    .put o.rendererKey (recordOf o b a).toJson.write.toUTF8]

def written (o : Options) (a : Artifacts) : List String :=
  [a.renderer.file, Path.withExtension a.renderer.file "json.tmp"] ++
    keyPaths o.cacheDir o.parserKey ++ keyPaths o.cacheDir o.rendererKey

variable {o : Options} {b : Data} {a : Artifacts} {s t : Store}

/-- A run that succeeds stores the record of the renderer that it wrote, wherever that is. -/
theorem deposit_of_regenerate (h : regenerate Formatter.compile o b s = (.ok a, t)) : ∃ e,
    a.renderer.save s.disk = (.ok (), e) ∧ t = deposit o a (recordOf o b a) { s with disk := e } := by
  cases hf : furnish o b .new with
  | error e =>
    rw [regenerate_eq, hf] at h
    cases h
  | ok assembly =>
    obtain ⟨styles, bbcodes, smilies, words, rfl⟩ := exists_ofRows hf
    rw [regenerate_ofRows] at h
    obtain ⟨r, e, hc, hsave, rfl⟩ := saved_of_publish h
    have hs : (configured o).SameSettings (registered o styles bbcodes).formatter := registered_settings
    obtain ⟨-, hclass, -, hcensor⟩ := board_settings hs
    obtain ⟨_, _, _, _, hdetached⟩ :=
      detachCensor_finish hcensor contains_censorTag_registered smilies words
    refine ⟨e, hsave, ?_⟩
    unfold composed at hc
    split at hc
    · cases hc
    · cases hc
      rw [recordOf, helper?_ofRows, hdetached, hclass]

theorem succeeds_puts_iff {e : Disk} {root : String} :
    (Store.mk e (.files root)).succeeds (puts o b a) = true ↔
      putFileSucceeds e root o.parserKey a.parser.toJson.write.toUTF8 = true ∧
        putFileSucceeds (putFile e root o.parserKey a.parser.toJson.write.toUTF8) root o.rendererKey
          (recordOf o b a).toJson.write.toUTF8 = true := by
  simp only [puts, Store.succeeds, Store.put, Store.putSucceeds, Bool.and_eq_true, and_true]

theorem deposit_files (e : Disk) (root : String) (r : RendererRecord) :
    deposit o a r ⟨e, .files root⟩ =
      ⟨putFile (putFile e root o.parserKey a.parser.toJson.write.toUTF8) root o.rendererKey
        r.toJson.write.toUTF8, .files root⟩ := by
  rw [deposit, putJson_files rfl, putJson_files rfl]

/-- The disks before, between and after the writes of a run. -/
structure Writes (o : Options) (b : Data) (a : Artifacts) (d e f g : Disk) : Prop where
  renderer : d.Replaces e a.renderer.file (Path.withExtension a.renderer.file "json.tmp")
    (a.renderer.snapshot.fileText a.renderer.className).toUTF8
  parser : e.Replaces f (Path.join o.cacheDir o.parserKey)
    (Path.withExtension (Path.join o.cacheDir o.parserKey) "tmp") a.parser.toJson.write.toUTF8
  record : f.Replaces g (Path.join o.cacheDir o.rendererKey)
    (Path.withExtension (Path.join o.cacheDir o.rendererKey) "tmp")
    (recordOf o b a).toJson.write.toUTF8

/-- A run whose writes all succeed replaces three files, one after the other. -/
theorem writes_of_regenerate (h : regenerate Formatter.compile o b s = (.ok a, t))
    (hcache : s.cache = .files o.cacheDir)
    (hputs : (Store.mk (a.renderer.save s.disk).2 s.cache).succeeds (puts o b a) = true) :
    t.cache = .files o.cacheDir ∧ ∃ e f, Writes o b a s.disk e f t.disk := by
  obtain ⟨e, hsave, rfl⟩ := deposit_of_regenerate h
  rw [hsave, hcache, succeeds_puts_iff] at hputs
  obtain ⟨hparser, hrecord⟩ := hputs
  rw [hcache, deposit_files]
  exact ⟨rfl, e, _, Renderer.replaces_of_save hsave, replaces_of_putFileSucceeds hparser,
    replaces_of_putFileSucceeds hrecord⟩

private theorem ofJson?_record (r : RendererRecord) : Parser.ofJson? r.toJson = none := by
  obtain ⟨className, classPrefix, censor⟩ := r
  refine Parser.ofJson?_of_missing ?_
  by_cases hp : classPrefix = "" <;> cases censor <;> simp [hp, Json.field?]

section Writes

variable {d e f : Disk}

theorem Writes.record_eq (h : Writes o b a d e f t.disk) (hcache : t.cache = .files o.cacheDir) :
    rendererRecord? o t = some (recordOf o b a) := by
  rw [rendererRecord?, getJson?_files _ hcache, h.record.read?_path, Option.bind_some,
    Json.ofBytes?_write (RendererRecord.isPlain_toJson _), Option.bind_some,
    RendererRecord.ofJson?_toJson]

/-- The parser is there to be read, unless it was written where the record was. -/
theorem Writes.parser_eq_iff (h : Writes o b a d e f t.disk) (hcache : t.cache = .files o.cacheDir) :
    t.getJson? Parser.ofJson? o.parserKey = some a.parser ↔
      ∀ p ∈ keyPaths o.cacheDir o.rendererKey,
        t.disk.resolve? (Path.join o.cacheDir o.parserKey) ≠ t.disk.resolve? p := by
  -- the record is written last, so it alone can have replaced the parser or moved it away
  rw [getJson?_files _ hcache, h.record.read?_other h.parser.read?_path]
  simp only [keyPaths, List.forall_mem_cons, List.not_mem_nil, false_imp_iff, implies_true, and_true]
  split
  · next hpath =>
    rw [Option.bind_some, Json.ofBytes?_write (RendererRecord.isPlain_toJson _), Option.bind_some,
      ofJson?_record]
    simp [hpath]
  · next hpath =>
    split
    · next hthrough => simp [hthrough]
    · next hthrough =>
      rw [Option.bind_some, Json.ofBytes?_write a.parser.isPlain_toJson, Option.bind_some,
        a.parser.ofJson?_toJson]
      simp [hpath, hthrough]

theorem Writes.read?_of_ne {g : Disk} (h : Writes o b a d e f g) {path : String} {content : ByteArray}
    (hr : d.read? path = some content) (hne : ∀ p ∈ written o a, g.resolve? path ≠ g.resolve? p) :
    g.read? path = some content := by
  simp only [written, keyPaths, List.cons_append, List.nil_append, List.forall_mem_cons] at hne
  obtain ⟨hrenderer, htmp, hparser, htmp', hrecord, htmp'', -⟩ := hne
  -- places are compared on the last disk, which has all directories of the ones before
  have he := h.renderer.read?_of_ne (h.parser.keeps.trans h.record.keeps) hr hrenderer htmp
  have hf := h.parser.read?_of_ne h.record.keeps he hparser htmp'
  exact h.record.read?_of_ne (.refl g) hf hrecord htmp''

theorem Writes.written_or_isSome_file? {g : Disk} {k : Location} (h : Writes o b a d e f g)
    (hk : (g.file? k).isSome) : (d.file? k).isSome ∨
      ∃ p ∈ [a.renderer.file, Path.join o.cacheDir o.parserKey, Path.join o.cacheDir o.rendererKey],
        g.resolve? p = some k := by
  rcases h.record.resolve?_or_isSome_file? hk with hr | hk
  · exact .inr ⟨_, by simp, hr⟩
  rcases h.parser.resolve?_or_isSome_file? hk with hr | hk
  · exact .inr ⟨_, by simp, h.record.keeps.resolve? hr⟩
  rcases h.renderer.resolve?_or_isSome_file? hk with hr | hk
  · exact .inr ⟨_, by simp, h.record.keeps.resolve? (h.parser.keeps.resolve? hr)⟩
  · exact .inl hk

end Writes

end Board
end BoardMarkup
