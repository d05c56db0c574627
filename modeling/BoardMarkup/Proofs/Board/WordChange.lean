import BoardMarkup.Proofs.Board.CachedValues
import BoardMarkup.Proofs.Formatter.Identity

/-! The censored words of a board are published in the record of its renderer, and nowhere else. -/
namespace BoardMarkup.Board

private theorem publish_finish (compile : Compiler) {o : Options} {f : Formatter}
    (hs : (configured o).SameSettings f) (ht : f.tags.contains censorTag = false) (s : Store)
    (smilies : List SmileyRow) (words : List WordRow) :
    publish compile o (finish f smilies words) s =
      match compile (addLinks (addSmilies f smilies)) s.disk with
      | (.error e, disk) => (.error (.compile e), { s with disk })
      | (.ok a, disk) =>
        (.ok a, deposit o a ⟨a.renderer.className, o.classPrefix, censorOf words⟩ { s with disk }) := by
  obtain ⟨-, hclass, -, hc⟩ := board_settings hs
  have hsettings : (addLinks (addSmilies f smilies)).rendering.classPrefix = o.classPrefix := by
    obtain ⟨emoticons, he⟩ := addSmilies_frame f smilies
    rw [he]
    exact hclass
  unfold publish
  rw [detachCensor_finish_eq hc ht]
  dsimp only
  rcases compile (addLinks (addSmilies f smilies)) s.disk with ⟨e | a, disk⟩
  · rfl
  · exact congrArg (fun classPrefix => (Except.ok a,
      deposit o a ⟨a.renderer.className, classPrefix, censorOf words⟩ { s with disk })) hsettings

private theorem deposit_memory {s : Store} {entries : Table ByteArray} (h : s.cache = .memory entries)
    (o : Options) (a : Artifacts) (r : RendererRecord) :
    (deposit o a r s).disk = s.disk ∧ rendererRecord? o (deposit o a r s) = some r := by
  have hparser : s.putJson o.parserKey a.parser.toJson = _ := Store.putJson_memory h
  constructor
  · rw [deposit, hparser, Store.putJson_memory rfl]
  · rw [deposit, hparser]
    exact Store.getJson?_putJson_of_faithful rfl RendererRecord.faithful o.rendererKey r

/--
Two boards that differ in their censored words alone fail for one and the same reason, or have the
same parser and the same renderer in the same file. Their records have the same class and class prefix,
and each has the words of its board.
-/
theorem words_stay_in_record (compile : Compiler) (o : Options) (b : Data) (s : Store)
    (ws vs : List WordRow) :
    (∃ e t, regenerate compile o { b with words := .ok ws } s = (.error e, t) ∧
      regenerate compile o { b with words := .ok vs } s = (.error e, t)) ∨
    ∃ a disk,
      regenerate compile o { b with words := .ok ws } s = (.ok a,
        deposit o a ⟨a.renderer.className, o.classPrefix, censorOf ws⟩ { s with disk }) ∧
      regenerate compile o { b with words := .ok vs } s = (.ok a,
        deposit o a ⟨a.renderer.className, o.classPrefix, censorOf vs⟩ { s with disk }) ∧
      (compile = Formatter.compile → disk.read? a.renderer.file =
        some (a.renderer.snapshot.fileText a.renderer.className).toUTF8) ∧
      ∀ entries, s.cache = .memory entries → ∀ r : RendererRecord,
        (deposit o a r { s with disk }).disk = disk ∧
          rendererRecord? o (deposit o a r { s with disk }) = some r := by
  obtain ⟨styles, bbcodes, smilies, words⟩ := b
  simp only [regenerate_eq]
  cases styles with
  | error e => exact .inl ⟨.query e, s, rfl, rfl⟩
  | ok styles =>
    cases bbcodes with
    | error e => exact .inl ⟨.query e, s, rfl, rfl⟩
    | ok bbcodes =>
      cases smilies with
      | error e => exact .inl ⟨.query e, s, rfl, rfl⟩
      | ok smilies =>
        have hrows : ∀ words, furnish o ⟨.ok styles, .ok bbcodes, .ok smilies, .ok words⟩ .new =
            .ok ((registered o styles bbcodes).finished smilies words) :=
          furnish_ofRows o styles bbcodes smilies
        have hcensor : (registered o styles bbcodes).formatter.tags.contains censorTag = false :=
          contains_censorTag_registered
        have hpublish := publish_finish compile (o := o) registered_settings hcensor s smilies
        simp only [hrows, Assembly.finished, hpublish]
        cases hc : compile (addLinks (addSmilies (registered o styles bbcodes).formatter smilies)) s.disk with
        | mk result disk =>
          cases result with
          | error e => exact .inl ⟨.compile e, { s with disk }, rfl, rfl⟩
          | ok a =>
            refine .inr ⟨a, disk, rfl, rfl, ?_, fun entries hm r =>
              deposit_memory (s := { s with disk }) hm o a r⟩
            rintro rfl
            exact (Renderer.replaces_of_save (Formatter.of_compile hc).2).read?_path

end BoardMarkup.Board
