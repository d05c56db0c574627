import BoardMarkup.Proofs.Board.Composition
import BoardMarkup.Proofs.Formatter.Artifact
import BoardMarkup.Proofs.Json.Faithful
import BoardMarkup.Proofs.Text.Bytes

/-! Renderers are told apart by their classes, and read from their files. -/
namespace BoardMarkup

open Json

/-- Two messages with different contents and the same first digits of their hashes. -/
def Sha256.Collide (m n : List UInt8) : Prop :=
  m ≠ n ∧ (Sha256.hex (Sha256.hash m)).take 40 = (Sha256.hex (Sha256.hash n)).take 40

namespace Snapshot

variable {s t : Snapshot}

theorem faithful : Faithful toJson ofJson? := by
  refine ⟨fun s => ?_, fun s => ?_⟩
  · simp [toJson, fields]
  · rw [toJson, ofJson?, slots?_record]
    · simp [fields, optional?_text, Slot.required?, textsOfJson?_textsToJson, asBool?]
    · rfl
    · decide

theorem bytes_inj (h : s.bytes = t.bytes) : s = t :=
  faithful.eq_of_bytes (toList_inj h)

theorem digest_inj (h : ¬ Sha256.Collide s.bytes t.bytes) : s.digest = t.digest ↔ s = t := by
  refine ⟨fun hd => ?_, fun he => by rw [he]⟩
  by_contra hne
  exact h ⟨fun hb => hne (bytes_inj hb), String.ofList_inj.1 hd⟩

def ofFile? (content : ByteArray) : Option (String × Snapshot) := do
  let j ← ofBytes? content
  match ← j.slots? ["class"] with
  | [className] => pure (← className.required? asText?, ← ofJson? j)
  | _ => none

theorem ofFile?_fileText (s : Snapshot) (className : String) :
    ofFile? (s.fileText className).toUTF8 = some (className, s) := by
  have hbytes : ofBytes? (s.fileText className).toUTF8 =
      some (.record (("class", .text className) :: s.fields)) :=
    ofBytes?_writePretty (s.isPlain_fields className)
  have hnames : (("class", Json.text className) :: s.fields).map (·.1) = ["class", "templates",
    "emoticons", "emoticons_not_if_condition", "parameters", "quick_renderer"] := rfl
  have hclass : slots? ["class"] (.record (("class", .text className) :: s.fields)) =
      some ([("class", Json.text className)].map fun f => .given f.2) :=
    slots?_of_subset (by simp) hnames (by decide) rfl
  simp only [ofFile?, hbytes, Option.bind_eq_bind, Option.bind_some, hclass, Slot.required?,
    List.map_cons, s.ofJson?_fields]
  rfl

end Snapshot

private theorem Path.exists_join (dir : String) {p : String} (hp : p ≠ "") :
    ∃ before : String, ∀ q, Path.join dir (p ++ q) = before ++ (p ++ q) := by
  have hhead : ∀ q, (p ++ q).toList.head? = p.toList.head? := fun q => by
    rw [String.toList_append, List.head?_append_of_ne_nil _ fun h => hp (String.toList_eq_nil_iff.1 h)]
  by_cases hslash : p.toList.head? = some '/'
  · refine ⟨"", fun q => ?_⟩
    rw [Path.join, hhead, if_pos hslash, String.empty_append]
  · by_cases hdir : dir = "" ∨ dir.toList.getLast? = some '/'
    · refine ⟨dir, fun q => ?_⟩
      rw [Path.join, hhead, if_neg hslash, if_pos hdir]
    · refine ⟨dir ++ "/", fun q => ?_⟩
      rw [Path.join, hhead, if_neg hslash, if_neg hdir]

namespace Renderer

open Disk

variable {r : Renderer} {d e : Disk} {base stem : String} {digits : List Char}

/-- Whatever slashes a class prefix has, its renderers stand beside each other in a directory. -/
theorem exists_name {p : String} (hp : p ≠ "") : ∃ stem : String, '/' ∉ stem.toList ∧
    ∀ dir, ∃ base, ∀ digits, IsDigest digits → Path.join dir (rendererFileName (p ++ String.ofList digits)) =
      Path.join base (String.ofList (name stem digits json)) := by
  by_cases hslash : '/' ∈ p.toList
  · obtain ⟨start, tail, hr, hn⟩ := Text.exists_last_separator hslash
    have hstem : '/' ∉ (String.ofList tail).toList := by rwa [String.toList_ofList]
    refine ⟨String.ofList tail, hstem, fun dir => ?_⟩
    obtain ⟨before, hbefore⟩ := Path.exists_join dir hp
    refine ⟨before ++ String.ofList (start ++ ['/']), fun digits hd => ?_⟩
    have hbase : Path.directoryText (before ++ String.ofList (start ++ ['/'])) =
        before.toList ++ (start ++ ['/']) := by
      rw [Path.directoryText, if_pos (.inr (by simp)), String.toList_append, String.toList_ofList]
    have hname := (isName_name hstem hd.alphanumeric (.inl rfl)).noSlash
    rw [rendererFileName, String.append_assoc, hbefore, ← String.toList_inj,
      Path.toList_join_of_notMem hname, hbase, String.toList_append, String.toList_append, hr]
    simp [name, json]
  · refine ⟨p, hslash, fun dir => ⟨dir, fun digits _ => ?_⟩⟩
    rw [rendererFileName_eq]

theorem read?_save_of_ne (h : r.save d = (.ok (), e)) (hs : '/' ∉ stem.toList) (hd : IsDigest digits)
    (hfile : r.file = Path.join base (String.ofList (name stem digits json))) {n : List Char}
    (hn : Path.IsName n) (hjson : n ≠ name stem digits json) (htmp : n ≠ name stem digits unfinished)
    {root : String} {content : ByteArray} (hr : d.read? (Path.join root (String.ofList n)) = some content) :
    e.read? (Path.join root (String.ofList n)) = some content := by
  have hreplaces := replaces_of_save h
  obtain ⟨k, hk⟩ := Option.isSome_iff_exists.1 (isSome_resolve?_of_read? hr)
  have hk := hreplaces.keeps.resolve? hk
  -- two paths that lead to one place end in one name
  have hother : ∀ {extension}, extension = json ∨ extension = unfinished →
      n ≠ name stem digits extension → e.resolve? (Path.join root (String.ofList n)) ≠
        e.resolve? (Path.join base (String.ofList (name stem digits extension))) := by
    intro extension hx hne he
    obtain ⟨-, -, i, -, -, hi⟩ := (resolve?_join hn).1 hk
    obtain ⟨-, -, j, -, -, hj⟩ := (resolve?_join (isName_name hs hd.alphanumeric hx)).1 (he.symm.trans hk)
    exact hne (String.ofList_inj.1 (List.singleton_inj.1 (List.append_inj' (hi.symm.trans hj) rfl).2))
  rw [hreplaces.read?_other hr, hfile, withExtension_name hs hd, if_neg (hother (.inl rfl) hjson),
    if_neg (hother (.inr rfl) htmp)]

end Renderer

theorem Formatter.of_compile {f : Formatter} {d e : Disk} {a : Artifacts} (h : f.compile d = (.ok a, e)) :
    f.artifacts = .ok a ∧ a.renderer.save d = (.ok (), e) := by
  unfold compile at h
  cases ha : f.artifacts with
  | error _ =>
    rw [ha] at h
    cases h
  | ok b =>
    rw [ha] at h
    simp only at h
    split at h
    · next hsave =>
      cases h
      exact ⟨rfl, hsave⟩
    · cases h

/-- The class is found in the file that compiling leaves, and the snapshot. -/
theorem Formatter.ofFile?_compile {f : Formatter} {d e : Disk} {a : Artifacts}
    (h : f.compile d = (.ok a, e)) : (e.read? a.renderer.file).bind Snapshot.ofFile? =
      some (a.renderer.className, a.renderer.snapshot) := by
  rw [(Renderer.replaces_of_save (of_compile h).2).read?_path, Option.bind_some,
    Snapshot.ofFile?_fileText]

namespace Renderer

variable {stem : String} {digits others : List Char}

private theorem name_inj {extension : List Char}
    (h : name stem digits extension = name stem others extension) :
    digits = others := by
  simpa [name] using h

private theorem name_json_ne_unfinished : name stem digits json ≠ name stem others unfinished := by
  intro h
  have hlast := congrArg List.getLast? h
  simp [name, json, unfinished] at hlast

end Renderer

/-- A renderer of other content is written beside the one before, and leaves it there. -/
theorem Formatter.compile_beside {f g : Formatter} {a b : Artifacts} {d e d' e' : Disk}
    (hf : f.compile d = (.ok a, e)) (hg : g.compile d' = (.ok b, e'))
    (hp : f.rendering.classPrefix = g.rendering.classPrefix)
    (hne : a.renderer.snapshot.digest ≠ b.renderer.snapshot.digest) :
    a.renderer.file ≠ b.renderer.file ∧ ∀ content, d'.read? a.renderer.file = some content →
      e'.read? a.renderer.file = some content := by
  obtain ⟨hartifacts, hsave⟩ := of_compile hg
  obtain ⟨hnonempty, dir, -, ha⟩ := compiled_of_artifacts (of_compile hf).1
  obtain ⟨-, dir', -, hb⟩ := compiled_of_artifacts hartifacts
  obtain ⟨digits, hd, hdigest⟩ := a.renderer.snapshot.exists_digest
  obtain ⟨others, hd', hdigest'⟩ := b.renderer.snapshot.exists_digest
  obtain ⟨stem, hs, hplace⟩ := Renderer.exists_name hnonempty
  obtain ⟨base, hbase⟩ := hplace dir
  obtain ⟨base', hbase'⟩ := hplace dir'
  have hfile := hbase digits hd
  have hfile' := hbase' others hd'
  rw [← hdigest, ← ha.className, ← ha.file] at hfile
  rw [← hdigest', hp, ← hb.className, ← hb.file] at hfile'
  have hname := Renderer.isName_name hs hd.alphanumeric (.inl rfl)
  have hname' := Renderer.isName_name hs hd'.alphanumeric (.inl rfl)
  -- both files are named after the same stem, so only their digits tell them apart
  have hother : Renderer.name stem digits Renderer.json ≠ Renderer.name stem others Renderer.json := by
    intro h
    rw [hdigest, hdigest', Renderer.name_inj h] at hne
    exact hne rfl
  refine ⟨fun h => hother ?_, fun content hread => ?_⟩
  · have hlast := congrArg Path.fileName? h
    rw [hfile, hfile', Path.fileName?_join hname, Path.fileName?_join hname'] at hlast
    exact Option.some.inj hlast
  · rw [hfile] at hread ⊢
    exact Renderer.read?_save_of_ne hsave hs hd' hfile' hname hother Renderer.name_json_ne_unfinished hread

/--
Different snapshots are hashed as different bytes, and are read from their files with their classes.
So renderers of one class prefix whose hashes do not collide share a class only if they are the same,
and a formatter with another snapshot gets a file of its own, beside the one before.
-/
theorem class_identifies_renderer :
    (∀ s t : Snapshot, s.bytes = t.bytes → s = t) ∧
    (∀ (s : Snapshot) (className : String),
      Snapshot.ofFile? (s.fileText className).toUTF8 = some (className, s)) ∧
    ∀ (f g : Formatter) (a b : Artifacts) (d e d' e' : Disk),
      f.compile d = (.ok a, e) → g.compile d' = (.ok b, e') →
      f.rendering.classPrefix = g.rendering.classPrefix →
      ¬ Sha256.Collide a.renderer.snapshot.bytes b.renderer.snapshot.bytes →
        (a.renderer.className = b.renderer.className ↔ a.renderer.snapshot = b.renderer.snapshot) ∧
        (e'.read? b.renderer.file).bind Snapshot.ofFile? =
          some (b.renderer.className, b.renderer.snapshot) ∧
        (a.renderer.snapshot ≠ b.renderer.snapshot → a.renderer.file ≠ b.renderer.file ∧
          ∀ content, d'.read? a.renderer.file = some content →
            e'.read? a.renderer.file = some content) := by
  refine ⟨fun _ _ => Snapshot.bytes_inj, Snapshot.ofFile?_fileText, ?_⟩
  intro f g a b d e d' e' hf hg hp hcollide
  have hdigest := Snapshot.digest_inj hcollide
  obtain ⟨-, dir, -, ha⟩ := Formatter.compiled_of_artifacts (Formatter.of_compile hf).1
  obtain ⟨-, dir', -, hb⟩ := Formatter.compiled_of_artifacts (Formatter.of_compile hg).1
  refine ⟨?_, Formatter.ofFile?_compile hg, fun hne => ?_⟩
  · rw [ha.className, hb.className, hp, String.append_right_inj, hdigest]
  · exact Formatter.compile_beside hf hg hp (mt hdigest.1 hne)

def bareFormatter (quick : Bool) : Formatter := { rendering := { cacheDir := some "/cache", quick } }

def bareSnapshot (quick : Bool) : Snapshot := ⟨.empty, .empty, none, .empty, quick⟩

def bareRenderer (quick : Bool) : Renderer :=
  let className := "Renderer_" ++ (bareSnapshot quick).digest
  ⟨className, Path.join "/cache" (rendererFileName className), bareSnapshot quick⟩

private theorem digest_bareSnapshot_ne : (bareSnapshot false).digest ≠ (bareSnapshot true).digest := by
  decide +kernel

theorem compile_bareFormatter (quick : Bool) {d : Disk} (h : d.Hosts "/cache" "Renderer_") :
    ∃ e, (bareFormatter quick).compile d =
        (.ok ⟨.ofFormatter (bareFormatter quick), bareRenderer quick⟩, e) ∧
      (d.prepared "/cache").SameShape e := by
  have ha : (bareFormatter quick).artifacts =
      .ok ⟨.ofFormatter (bareFormatter quick), bareRenderer quick⟩ := rfl
  obtain ⟨digits, hd, hdigest⟩ := (bareSnapshot quick).exists_digest
  obtain ⟨e, hsave, hs, -⟩ :=
    h.save_eq_ok (r := bareRenderer quick) hd (congrArg ("Renderer_" ++ ·) hdigest) rfl
  refine ⟨e, ?_, hs⟩
  simp only [Formatter.compile, ha, hsave]

/-- When the formatter becomes quick, its renderer is written beside the one before. -/
theorem class_identifies_bareFormatter : ∃ a b e e',
    (bareFormatter false).compile {} = (.ok a, e) ∧ (bareFormatter true).compile e = (.ok b, e') ∧
    a.renderer.className ≠ b.renderer.className ∧
    (e'.read? a.renderer.file).bind Snapshot.ofFile? = some (a.renderer.className, a.renderer.snapshot) := by
  have hhosts := Board.hosts_example
  obtain ⟨e, hf, hs⟩ := compile_bareFormatter false hhosts
  obtain ⟨e', hg, -⟩ := compile_bareFormatter true (hhosts.of_sameShape hs)
  have hne : bareSnapshot false ≠ bareSnapshot true := by decide
  have hcollide : ¬ Sha256.Collide (bareSnapshot false).bytes (bareSnapshot true).bytes :=
    fun h => digest_bareSnapshot_ne (congrArg String.ofList h.2)
  obtain ⟨hclass, -, hfile⟩ := class_identifies_renderer.2.2 _ _ _ _ _ _ _ _ hf hg rfl hcollide
  obtain ⟨-, hkept⟩ := hfile hne
  obtain ⟨content, hcontent, hof⟩ := Option.bind_eq_some_iff.1 (Formatter.ofFile?_compile hf)
  refine ⟨_, _, e, e', hf, hg, mt hclass.1 hne, ?_⟩
  rw [hkept content hcontent, Option.bind_some, hof]

end BoardMarkup
