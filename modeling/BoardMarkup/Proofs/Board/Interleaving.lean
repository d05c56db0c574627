import BoardMarkup.Proofs.Board.LifeCycle
import BoardMarkup.Proofs.Board.Race
import BoardMarkup.Proofs.Store.Files

/-! What becomes of a renderer when several runs write it at the same time. -/
namespace BoardMarkup.Board

/-- The file of a renderer and the temporary one lead to places of their own, in a directory that is there. -/
structure Site (d : Disk) (a : Artifacts) (m t : Location) : Prop where
  made : prepare d a.renderer.file = (d, true)
  leads : d.resolve? a.renderer.file = some m
  free : d.isDirectory m = false
  through : d.resolve? (Path.withExtension a.renderer.file "json.tmp") = some t
  spare : d.isDirectory t = false
  ne : m ≠ t

/-- Storing the parser and the record leaves a place alone, if they are stored in files at all. -/
def Spares (o : Options) (d : Disk) (cache : Cache) (k : Location) : Prop :=
  ∀ root, cache = .files root → ∀ key, key = o.parserKey ∨ key = o.rendererKey →
    ∀ e c, d.Keeps e → (Store.putFile e root key c).node? k = e.node? k

/-- A run, and what its temporary file and the renderer's file hold. -/
structure View where
  phase : Phase
  temporary : Option ByteArray
  placed : Option ByteArray

/-- What a step of a run does to its own view, where `c` is what it writes. -/
inductive Effect (c : ByteArray) (m t : Location) : View → View → Prop where
  | create {x y} : Effect c m t ⟨.waiting, x, y⟩ ⟨.opened (some t), some .empty, y⟩
  | fill {x y} : Effect c m t ⟨.opened (some t), some x, y⟩ ⟨.filled, some c, y⟩
  | fillPlaced {x y} : Effect c m t ⟨.opened (some m), x, y⟩ ⟨.filled, x, some c⟩
  | fillNothing {x y} : Effect c m t ⟨.opened none, x, y⟩ ⟨.filled, x, y⟩
  | place {x y} : Effect c m t ⟨.filled, some x, y⟩ ⟨.placed, none, some x⟩
  | miss {y} : Effect c m t ⟨.filled, none, y⟩ ⟨.unplaced, none, y⟩
  | store {x y} : Effect c m t ⟨.placed, x, y⟩ ⟨.stored, x, y⟩
  | finish {x y} : Effect c m t ⟨.stored, x, y⟩ ⟨.returned, x, y⟩
  | clean {x y} : Effect c m t ⟨.unplaced, x, y⟩ ⟨.failed, none, y⟩
  | rest {p x y} (h : p = .returned ∨ p = .failed) : Effect c m t ⟨p, x, y⟩ ⟨p, x, y⟩

section Steps

variable {ι : Type} [DecidableEq ι] {o : Options} {a : Artifacts} {r : RendererRecord} {s : Store}
  {d e : Disk} {m t : Location} {first : Option ByteArray} {w : Race ι} {i j : ι}

theorem Site.of_keeps (h : Site d a m t) (hk : d.Keeps e) (hm : e.isDirectory m = false)
    (ht : e.isDirectory t = false) : Site e a m t := by
  refine ⟨?_, hk.resolve? h.leads, hm, hk.resolve? h.through, ht, h.ne⟩
  have hmade := h.made
  unfold prepare at hmade ⊢
  split at hmade
  · exact Disk.makeDirectory_of_keeps hmade hk
  · rfl

theorem Site.of_sameShape (h : Site d a m t) (hs : d.SameShape e) : Site e a m t :=
  h.of_keeps hs.keeps ((hs.directories m).trans h.free) ((hs.directories t).trans h.spare)

theorem Site.create?_eq (h : Site d a m t) :
    d.create? (Path.withExtension a.renderer.file "json.tmp") = some (d.set t (.file .empty)) := by
  unfold Disk.create?
  rw [h.through]
  simp only [Option.bind_eq_bind, Option.bind_some]
  split
  · next hn =>
    have hspare := h.spare
    rw [Disk.isDirectory, hn] at hspare
    cases hspare
  · rfl

namespace Race

/-- What is true at any time, whatever the order of the steps is. -/
structure Placed (d : Disk) (s : Store) (a : Artifacts) (m t : Location) (w : Race ι) : Prop where
  site : Site w.store.disk a m t
  keeps : d.Keeps w.store.disk
  cache : ∀ root, w.store.cache = .files root → s.cache = .files root
  handles : ∀ i l, w.phase i = .opened (some l) →
    l = m ∨ (l = t ∧ (w.store.disk.file? t).isSome)

def view (m t : Location) (w : Race ι) (i : ι) : View :=
  ⟨w.phase i, w.store.disk.file? t, w.store.disk.file? m⟩

/-- The store of a run changes, and its phase, but no file that another run has open is moved. -/
theorem Placed.put (h : Placed d s a m t w) (hs : w.store.disk.SameShape e)
    (ht : (w.store.disk.file? t).isSome → (e.file? t).isSome) {p : Phase}
    (hp : ∀ l, p = .opened (some l) → l = t ∧ (e.file? t).isSome) :
    Placed d s a m t (w.put i { w.store with disk := e } p) := by
  refine ⟨h.site.of_sameShape hs, h.keeps.trans hs.keeps, h.cache, fun j l hj => ?_⟩
  by_cases hji : j = i
  · rw [hji, phase_put] at hj
    exact .inr (hp l hj)
  · rw [phase_put_of_ne hji] at hj
    rcases h.handles j l hj with hl | ⟨hl, hsome⟩
    · exact .inl hl
    · exact .inr ⟨hl, ht hsome⟩

/-- The temporary file is moved or removed, and no run has it open any more. -/
theorem Placed.put_moved (h : Placed d s a m t w) (hs : w.store.disk.SameShape e)
    {target : Option Location} (htarget : ∀ l, target = some l → l = m) {p : Phase}
    (hp : p.isWriting = false) :
    Placed d s a m t ((w.moved (some t) target).put i { w.store with disk := e } p) := by
  refine ⟨h.site.of_sameShape hs, h.keeps.trans hs.keeps, h.cache, fun j l hj => .inl ?_⟩
  have hj : (w.phase j).moved (some t) target = .opened (some l) :=
    phase_eq_of_phase_put hj (Phase.ne_opened_of_not_isWriting hp)
  cases hw : w.phase j with
  | opened handle =>
    cases handle with
    | none => rw [hw] at hj; cases hj
    | some k =>
      rw [hw, Phase.moved, Phase.opened.injEq] at hj
      rcases h.handles j k hw with hk | ⟨hk, -⟩
      · have hkt : some k ≠ some t := fun he => h.site.ne (hk.symm.trans (Option.some.inj he))
        rw [if_neg hkt] at hj
        split at hj
        · cases hj
        · rw [← Option.some.inj hj, hk]
      · rw [if_pos (congrArg some hk)] at hj
        exact htarget l hj
  | _ => rw [hw] at hj; cases hj

theorem Placed.put_json (h : Placed d s a m t w) (hm : Spares o d s.cache m) (ht : Spares o d s.cache t)
    {key : String} (hkey : key = o.parserKey ∨ key = o.rendererKey) (v : Json) {p : Phase}
    (hp : p.isWriting = false) :
    Placed d s a m t (w.put i (w.store.putJson key v) p) ∧
      (w.store.putJson key v).disk.file? m = w.store.disk.file? m ∧
      (w.store.putJson key v).disk.file? t = w.store.disk.file? t := by
  have hstore : w.store.disk.Keeps (w.store.putJson key v).disk ∧
      (∀ root, (w.store.putJson key v).cache = .files root → w.store.cache = .files root) ∧
      (∀ k, Spares o d s.cache k → (w.store.putJson key v).disk.node? k = w.store.disk.node? k) := by
    have hcache := h.cache
    have hkeeps := h.keeps
    generalize w.store = u at hcache hkeeps
    obtain ⟨f, cache⟩ := u
    cases cache with
    | none => exact ⟨.refl _, fun _ h => h, fun _ _ => rfl⟩
    | memory entries =>
      refine ⟨.refl _, fun root hr => ?_, fun _ _ => rfl⟩
      cases hr
    | files root =>
      refine ⟨Store.putFile_keeps f root key _, fun _ h => h, fun k hk => ?_⟩
      exact hk root (hcache root rfl) key hkey f _ hkeeps
  obtain ⟨hkeeps, hcache, hnode⟩ := hstore
  have hfile : ∀ k, Spares o d s.cache k →
      (w.store.putJson key v).disk.file? k = w.store.disk.file? k :=
    fun k hk => Disk.file?_congr (hnode k hk)
  have hdirectory : ∀ k, Spares o d s.cache k →
      (w.store.putJson key v).disk.isDirectory k = w.store.disk.isDirectory k := by
    intro k hk
    rw [Disk.isDirectory, Disk.isDirectory, hnode k hk]
  refine ⟨⟨?_, h.keeps.trans hkeeps, fun root hr => h.cache root (hcache root hr), ?_⟩, hfile m hm,
    hfile t ht⟩
  · exact h.site.of_keeps hkeeps ((hdirectory m hm).trans h.site.free)
      ((hdirectory t ht).trans h.site.spare)
  · intro j l hj
    have hj := phase_eq_of_phase_put hj (Phase.ne_opened_of_not_isWriting hp)
    rcases h.handles j l hj with hl | ⟨hl, hsome⟩
    · exact .inl hl
    · refine .inr ⟨hl, ?_⟩
      rw [store_put, hfile t ht]
      exact hsome

/-- A step keeps what is always true, and has one of the effects. -/
def Advances (o : Options) (r : RendererRecord) (d : Disk) (s : Store) (a : Artifacts) (m t : Location)
    (w : Race ι) (i : ι) : Prop :=
  Placed d s a m t (w.step o a r i) ∧
    Effect (content a) m t (w.view m t i) ((w.step o a r i).view m t i)

section Advances

theorem Placed.create (h : Placed d s a m t w) (hp : w.phase i = .waiting) (o : Options)
    (r : RendererRecord) : Advances o r d s a m t w i := by
  have hsite := h.site
  have hs := Disk.sameShape_set hsite.spare .empty
  have hfile := Disk.file?_set (d := w.store.disk) (Disk.ne_nil_of_not_isDirectory hsite.spare) .empty
  unfold Advances view
  rw [hp, step_waiting hp, hsite.made]
  simp only [hsite.create?_eq, hsite.through, phase_put, store_put, hfile, if_true, if_neg hsite.ne]
  refine ⟨h.put hs (fun _ => ?_) (fun l hl => ?_), .create⟩
  · rw [hfile, if_pos rfl]
    rfl
  · cases hl
    rw [hfile, if_pos rfl]
    exact ⟨rfl, rfl⟩

/-- What is filled is the temporary file, or the renderer's file if that is what it has become. -/
theorem Placed.fill (h : Placed d s a m t w) {l : Location} (hp : w.phase i = .opened (some l))
    (o : Options) (r : RendererRecord) : Advances o r d s a m t w i := by
  have hsite := h.site
  have hl : w.store.disk.isDirectory l = false := by
    rcases h.handles i l hp with rfl | ⟨rfl, -⟩
    · exact hsite.free
    · exact hsite.spare
  have hs := Disk.sameShape_set hl (content a)
  have hfile := Disk.file?_set (d := w.store.disk) (Disk.ne_nil_of_not_isDirectory hl) (content a)
  have hkept : (w.store.disk.file? t).isSome →
      ((w.store.disk.set l (.file (content a))).file? t).isSome := by
    intro hsome
    rw [hfile]
    split
    · rfl
    · exact hsome
  unfold Advances view
  rw [hp, step_opened hp]
  simp only [phase_put, store_put]
  refine ⟨h.put hs hkept (fun l hl => by cases hl), ?_⟩
  rcases h.handles i l hp with rfl | ⟨rfl, hsome⟩
  · rw [hfile, hfile, if_pos rfl, if_neg hsite.ne.symm]
    exact .fillPlaced
  · obtain ⟨x, hx⟩ := Option.isSome_iff_exists.1 hsome
    rw [hfile, hfile, if_pos rfl, if_neg hsite.ne, hx]
    exact .fill

private theorem Placed.rename (h : Placed d s a m t w) (hp : w.phase i = .filled) (o : Options)
    (r : RendererRecord) : Advances o r d s a m t w i := by
  have hsite := h.site
  unfold Advances view
  rw [hp, step_filled hp, hsite.through, hsite.leads]
  rcases Disk.rename?_cases hsite.through hsite.leads hsite.free with
    ⟨hf, hr⟩ | ⟨c, e, hf, hr, hs, hfile⟩
  · simp only [hr, phase_put, store_put, hf]
    exact ⟨h.put (.refl _) id (fun l hl => by cases hl), .miss⟩
  · simp only [hr, phase_put, store_put, hf, hfile, if_true, if_neg hsite.ne.symm]
    exact ⟨h.put_moved hs (fun l hl => (Option.some.inj hl).symm) rfl, .place⟩

theorem Placed.clean (h : Placed d s a m t w) (hp : w.phase i = .unplaced) (o : Options)
    (r : RendererRecord) : Advances o r d s a m t w i := by
  have hsite := h.site
  obtain ⟨hs, hfile⟩ := Disk.file?_getD_remove? hsite.through hsite.spare
  unfold Advances view
  rw [hp, step_unplaced hp, hsite.through]
  cases hr : w.store.disk.remove? (Path.withExtension a.renderer.file "json.tmp") with
  | none =>
    rw [hr, Option.getD_none] at hs hfile
    have hgone := hfile t
    rw [if_pos rfl] at hgone
    simp only [phase_put, store_put]
    refine ⟨h.put (.refl _) id (fun l hl => by cases hl), ?_⟩
    rw [hgone]
    exact .clean
  | some e =>
    rw [hr, Option.getD_some] at hs hfile
    simp only [phase_put, store_put, hfile, if_true, if_neg hsite.ne]
    exact ⟨h.put_moved hs (fun l hl => by cases hl) rfl, .clean⟩

end Advances

/-- All that a step can do. -/
theorem placed_step (h : Placed d s a m t w) (hm : Spares o d s.cache m) (ht : Spares o d s.cache t)
    (r : RendererRecord) (i : ι) : Advances o r d s a m t w i := by
  cases hp : w.phase i with
  | waiting => exact h.create hp o r
  | opened handle =>
    cases handle with
    | some l => exact h.fill hp o r
    | none =>
      unfold Advances view
      rw [hp, step_opened_none hp]
      simp only [phase_put, store_put]
      exact ⟨h.put (.refl _) id (fun l hl => by cases hl), .fillNothing⟩
  | filled => exact h.rename hp o r
  | placed =>
    obtain ⟨hplaced, hfm, hft⟩ := h.put_json (i := i) hm ht (.inl rfl) a.parser.toJson
      (show Phase.stored.isWriting = false from rfl)
    unfold Advances view
    rw [hp, step_placed hp]
    simp only [phase_put, store_put, hfm, hft]
    exact ⟨hplaced, .store⟩
  | stored =>
    obtain ⟨hplaced, hfm, hft⟩ := h.put_json (i := i) hm ht (.inr rfl) r.toJson
      (show Phase.returned.isWriting = false from rfl)
    unfold Advances view
    rw [hp, step_stored hp]
    simp only [phase_put, store_put, hfm, hft]
    exact ⟨hplaced, .finish⟩
  | unplaced => exact h.clean hp o r
  | returned =>
    unfold Advances view
    rw [step_returned hp, hp]
    exact ⟨h, .rest (.inl rfl)⟩
  | failed =>
    unfold Advances view
    rw [step_failed hp, hp]
    exact ⟨h, .rest (.inr rfl)⟩

section Doomed

/-- Two runs write at the same time, or the file that one writes is gone, or one has not renamed its file. -/
def Doomed (t : Location) (w : Race ι) : Prop :=
  (∃ i j, i ≠ j ∧ (w.phase i).isWriting = true ∧ (w.phase j).isWriting = true) ∨
    (∃ i, (w.phase i).isWriting = true ∧ w.store.disk.file? t = none) ∨
    ∃ i, w.phase i = .unplaced ∨ w.phase i = .failed

omit [DecidableEq ι] in
theorem not_doomed_of_returned (h : ∀ i, w.phase i = .returned) (t : Location) : ¬ Doomed t w := by
  rintro (⟨i, _, _, hi, _⟩ | ⟨i, hi, _⟩ | ⟨i, hi⟩) <;> rw [h i] at hi
  · cases hi
  · cases hi
  · rcases hi with hi | hi <;> cases hi

/-- A run that writes while another one does keeps on, or takes the file away, or finds none. -/
theorem doomed_of_overlap (hne : i ≠ j) (hi : (w.phase i).isWriting = true)
    (hj : (w.phase j).isWriting = true)
    (he : Effect (content a) m t (w.view m t i) ((w.step o a r i).view m t i)) :
    Doomed t (w.step o a r i) := by
  have hj' : ((w.step o a r i).phase j).isWriting = true := by
    rw [isWriting_step_of_ne o a r w hne.symm, hj]
  generalize hv : w.view m t i = v at he
  generalize hv' : (w.step o a r i).view m t i = v' at he
  have hphase : w.phase i = v.phase := congrArg View.phase hv
  have hphase' : (w.step o a r i).phase i = v'.phase := congrArg View.phase hv'
  have htemporary' : (w.step o a r i).store.disk.file? t = v'.temporary := congrArg View.temporary hv'
  rw [hphase] at hi
  cases he with
  | create => cases hi
  | fill => exact .inl ⟨i, j, hne, by rw [hphase']; rfl, hj'⟩
  | fillPlaced => exact .inl ⟨i, j, hne, by rw [hphase']; rfl, hj'⟩
  | fillNothing => exact .inl ⟨i, j, hne, by rw [hphase']; rfl, hj'⟩
  | place => exact .inr (.inl ⟨j, hj', htemporary'⟩)
  | miss => exact .inr (.inr ⟨i, .inl hphase'⟩)
  | store => cases hi
  | finish => cases hi
  | clean => cases hi
  | rest h => rcases h with rfl | rfl <;> cases hi

/-- A run that writes to no file, or another one beside it, does not bring the file back. -/
theorem doomed_of_gone (hj : (w.phase j).isWriting = true) (hgone : w.store.disk.file? t = none)
    (he : Effect (content a) m t (w.view m t i) ((w.step o a r i).view m t i)) :
    Doomed t (w.step o a r i) := by
  have hother : j ≠ i → ((w.step o a r i).phase j).isWriting = true := fun hji => by
    rw [isWriting_step_of_ne o a r w hji, hj]
  generalize hv : w.view m t i = v at he
  generalize hv' : (w.step o a r i).view m t i = v' at he
  have hphase : w.phase i = v.phase := congrArg View.phase hv
  have htemporary : w.store.disk.file? t = v.temporary := congrArg View.temporary hv
  have hphase' : (w.step o a r i).phase i = v'.phase := congrArg View.phase hv'
  have htemporary' : (w.step o a r i).store.disk.file? t = v'.temporary := congrArg View.temporary hv'
  rw [hgone] at htemporary
  -- a run that does not write is not the one whose file is gone
  have hne : v.phase.isWriting = false → j ≠ i := by
    rintro hp rfl
    rw [hphase, hp] at hj
    cases hj
  cases he with
  | create =>
    have hji := hne rfl
    exact .inl ⟨j, i, hji, hother hji, by rw [hphase']; rfl⟩
  | fill => cases htemporary
  | fillPlaced => exact .inr (.inl ⟨i, by rw [hphase']; rfl, htemporary'.trans htemporary.symm⟩)
  | fillNothing => exact .inr (.inl ⟨i, by rw [hphase']; rfl, htemporary'.trans htemporary.symm⟩)
  | place => cases htemporary
  | miss => exact .inr (.inr ⟨i, .inl hphase'⟩)
  | store => exact .inr (.inl ⟨j, hother (hne rfl), htemporary'.trans htemporary.symm⟩)
  | finish => exact .inr (.inl ⟨j, hother (hne rfl), htemporary'.trans htemporary.symm⟩)
  | clean => exact .inr (.inr ⟨i, .inr hphase'⟩)
  | rest h =>
    refine .inr (.inl ⟨j, hother (hne ?_), htemporary'.trans htemporary.symm⟩)
    rcases h with rfl | rfl <;> rfl

theorem Doomed.step (h : Doomed t w)
    (he : Effect (content a) m t (w.view m t i) ((w.step o a r i).view m t i)) :
    Doomed t (w.step o a r i) := by
  rcases h with ⟨x, y, hxy, hx, hy⟩ | ⟨x, hx, hgone⟩ | ⟨x, hx⟩
  · by_cases hix : i = x
    · subst hix
      exact doomed_of_overlap hxy hx hy he
    · by_cases hiy : i = y
      · subst hiy
        exact doomed_of_overlap hxy.symm hy hx he
      · refine .inl ⟨x, y, hxy, ?_, ?_⟩
        · rw [isWriting_step_of_ne o a r w (Ne.symm hix), hx]
        · rw [isWriting_step_of_ne o a r w (Ne.symm hiy), hy]
  · exact doomed_of_gone hx hgone he
  · refine .inr (.inr ⟨x, ?_⟩)
    by_cases hxi : x = i
    · subst hxi
      rcases hx with hx | hx
      · rw [step_unplaced hx]
        split <;> exact .inr (phase_put _ _ _ _)
      · rw [step_failed hx]
        exact .inr hx
    · have hforget := forget_step o a r w hxi
      rcases hx with hx | hx <;> rw [hx] at hforget
      · exact .inl (Phase.eq_of_forget hforget rfl)
      · exact .inr (Phase.eq_of_forget hforget rfl)

end Doomed

section Orderly

/--
At most one run writes, to a temporary file that is there, and none fails. The renderer's file holds
what it held at first, or all that a run writes.
-/
structure Orderly (first : Option ByteArray) (c : ByteArray) (m t : Location) (w : Race ι) : Prop where
  single : ∀ i j, (w.phase i).isWriting = true → (w.phase j).isWriting = true → i = j
  clean : ∀ i, w.phase i ≠ .unplaced ∧ w.phase i ≠ .failed
  opened : ∀ i h, w.phase i = .opened h → h = some t
  filled : ∀ i, w.phase i = .filled → w.store.disk.file? t = some c
  placed : w.store.disk.file? m = first ∨ w.store.disk.file? m = some c

/-- While no other run writes, only the run that makes the step matters. -/
theorem Orderly.step_alone (h : Orderly first (content a) m t w)
    (hothers : ∀ j, j ≠ i → (w.phase j).isWriting = false) {v : View}
    (hv : (w.step o a r i).view m t i = v) (hclean : v.phase ≠ .unplaced ∧ v.phase ≠ .failed)
    (hopened : ∀ x, v.phase = .opened x → x = some t)
    (hfilled : v.phase = .filled → v.temporary = some (content a))
    (hplaced : v.placed = first ∨ v.placed = some (content a)) :
    Orderly first (content a) m t (w.step o a r i) := by
  subst hv
  have hwriting : ∀ j, ((w.step o a r i).phase j).isWriting = true → j = i := by
    intro j hj
    by_contra hji
    rw [isWriting_step_of_ne o a r w hji, hothers j hji] at hj
    cases hj
  refine ⟨fun x y hx hy => (hwriting x hx).trans (hwriting y hy).symm, fun x => ?_, fun x p hx => ?_,
    fun x hx => ?_, hplaced⟩
  · by_cases hxi : x = i
    · rw [hxi]
      exact hclean
    · have hforget := forget_step o a r w hxi
      constructor
      · intro hp
        rw [hp] at hforget
        exact (h.clean x).1 (Phase.eq_of_forget hforget.symm rfl)
      · intro hp
        rw [hp] at hforget
        exact (h.clean x).2 (Phase.eq_of_forget hforget.symm rfl)
  · obtain rfl := hwriting x (by rw [hx]; rfl)
    exact hopened p hx
  · obtain rfl := hwriting x (by rw [hx]; rfl)
    exact hfilled hx

theorem Orderly.step_later (h : Orderly first (content a) m t w) {v v' : View} (hv : w.view m t i = v)
    (hv' : (w.step o a r i).view m t i = v') (hw : v.phase.isWriting = false)
    (hw' : v'.phase.isWriting = false) (hclean : v'.phase ≠ .unplaced ∧ v'.phase ≠ .failed)
    (hsame : v'.temporary = v.temporary ∧ v'.placed = v.placed) :
    Orderly first (content a) m t (w.step o a r i) := by
  subst hv hv'
  obtain ⟨ht, hm⟩ := hsame
  have hp : (w.phase i).isWriting = false := hw
  have hp' : ((w.step o a r i).phase i).isWriting = false := hw'
  have ht : (w.step o a r i).store.disk.file? t = w.store.disk.file? t := ht
  have hm : (w.step o a r i).store.disk.file? m = w.store.disk.file? m := hm
  have hne : w.phase i ≠ .filled := fun he => by
    rw [he] at hp
    cases hp
  have hothers : ∀ j, j ≠ i → (w.step o a r i).phase j = w.phase j :=
    fun j hj => phase_step_of_ne o a r hj hne (h.clean i).1
  have hwriting : ∀ j, ((w.step o a r i).phase j).isWriting = true →
      (w.step o a r i).phase j = w.phase j := by
    intro j hj
    refine hothers j fun he => ?_
    rw [he, hp'] at hj
    cases hj
  refine ⟨fun x y hx hy => ?_, fun x => ?_, fun x p hx => ?_, fun x hx => ?_, ?_⟩
  · have hx' := hwriting x hx
    have hy' := hwriting y hy
    rw [hx'] at hx
    rw [hy'] at hy
    exact h.single x y hx hy
  · by_cases hxi : x = i
    · rw [hxi]
      exact hclean
    · rw [hothers x hxi]
      exact h.clean x
  · have hx' := hwriting x (by rw [hx]; rfl)
    exact h.opened x p (hx'.symm.trans hx)
  · have hx' := hwriting x (by rw [hx]; rfl)
    rw [ht]
    exact h.filled x (hx'.symm.trans hx)
  · rw [hm]
    exact h.placed

theorem Orderly.step (h : Orderly first (content a) m t w) (hmt : m ≠ t)
    (hex : w.phase i = .waiting → ∀ j, (w.phase j).isWriting = false)
    (he : Effect (content a) m t (w.view m t i) ((w.step o a r i).view m t i)) :
    Orderly first (content a) m t (w.step o a r i) := by
  generalize hv : w.view m t i = v at he
  generalize hv' : (w.step o a r i).view m t i = v' at he
  have hphase : w.phase i = v.phase := congrArg View.phase hv
  have htemporary : w.store.disk.file? t = v.temporary := congrArg View.temporary hv
  have hplaced : v.placed = first ∨ v.placed = some (content a) := by
    rw [← hv]
    exact h.placed
  have hothers : v.phase.isWriting = true → ∀ j, j ≠ i → (w.phase j).isWriting = false := by
    intro hp j hj
    by_contra hw
    exact hj (h.single j i (by simpa using hw) (by rw [hphase, hp]))
  cases he with
  | create =>
    refine h.step_alone (fun j _ => hex hphase j) hv' ⟨nofun, nofun⟩ ?_ nofun hplaced
    intro x hx
    cases hx
    rfl
  | fill => exact h.step_alone (hothers rfl) hv' ⟨nofun, nofun⟩ nofun (fun _ => rfl) hplaced
  | fillPlaced => exact absurd (Option.some.inj (h.opened i _ hphase)) hmt
  | fillNothing => cases h.opened i _ hphase
  | place =>
    have hfilled := h.filled i hphase
    rw [htemporary] at hfilled
    exact h.step_alone (hothers rfl) hv' ⟨nofun, nofun⟩ nofun nofun (.inr hfilled)
  | miss =>
    have hfilled := h.filled i hphase
    rw [htemporary] at hfilled
    cases hfilled
  | store => exact h.step_later hv hv' rfl rfl ⟨nofun, nofun⟩ ⟨rfl, rfl⟩
  | finish => exact h.step_later hv hv' rfl rfl ⟨nofun, nofun⟩ ⟨rfl, rfl⟩
  | clean => exact absurd hphase (h.clean i).1
  | rest hp =>
    rcases hp with rfl | rfl
    · exact h.step_later hv hv' rfl rfl ⟨nofun, nofun⟩ ⟨rfl, rfl⟩
    · exact absurd hphase (h.clean i).2

end Orderly

section Schedules

/-- No run creates its temporary file while another one writes. -/
def Exclusive (o : Options) (a : Artifacts) (r : RendererRecord) (w : Race ι) : List ι → Prop
  | [] => True
  | i :: rest =>
    (w.phase i = .waiting → ∀ j, (w.phase j).isWriting = false) ∧ Exclusive o a r (w.step o a r i) rest

variable (hm : Spares o d s.cache m) (ht : Spares o d s.cache t)

include hm ht

private theorem doomed_run (h : Placed d s a m t w) (hd : Doomed t w) (schedule : List ι) :
    Doomed t (w.run o a r schedule) := by
  induction schedule generalizing w with
  | nil => exact hd
  | cons i schedule ih =>
    obtain ⟨hplaced, heffect⟩ := placed_step h hm ht r i
    exact ih hplaced (hd.step heffect)

theorem orderly_run (h : Placed d s a m t w) (hw : Orderly first (content a) m t w) (schedule : List ι)
    (hex : Exclusive o a r w schedule) :
    ∀ before, before <+: schedule →
      Placed d s a m t (w.run o a r before) ∧ Orderly first (content a) m t (w.run o a r before) := by
  induction schedule generalizing w with
  | nil =>
    intro before hb
    rw [List.prefix_nil.1 hb]
    exact ⟨h, hw⟩
  | cons i schedule ih =>
    intro before hb
    obtain ⟨hfirst, hrest⟩ := hex
    obtain ⟨hplaced, heffect⟩ := placed_step h hm ht r i
    cases before with
    | nil => exact ⟨h, hw⟩
    | cons j before =>
      obtain ⟨rfl, hbefore⟩ := List.cons_prefix_cons.1 hb
      exact ih hplaced (hw.step h.site.ne hfirst heffect) hrest before hbefore

/-- A run that creates the file in which another one writes takes something from one of the two. -/
theorem exclusive_of_returned (h : Placed d s a m t w) (schedule : List ι)
    (hret : ∀ i, (w.run o a r schedule).phase i = .returned) : Exclusive o a r w schedule := by
  induction schedule generalizing w with
  | nil => trivial
  | cons i schedule ih =>
    obtain ⟨hplaced, heffect⟩ := placed_step h hm ht r i
    refine ⟨fun hp j => ?_, ih hplaced hret⟩
    by_contra hj
    have hji : j ≠ i := by
      rintro rfl
      rw [hp] at hj
      exact hj rfl
    have hdoomed : Doomed t (w.step o a r i) := by
      refine .inl ⟨j, i, hji, ?_, ?_⟩
      · rw [isWriting_step_of_ne o a r w hji]
        simpa using hj
      · rw [step_waiting hp, h.site.made]
        simp only [h.site.create?_eq, phase_put]
        rfl
    exact not_doomed_of_returned hret t (doomed_run hm ht hplaced hdoomed schedule)

omit hm ht in
theorem create_step (h : Placed d s a m t w) (hp : w.phase i = .waiting) (o : Options) (r : RendererRecord) :
    (w.step o a r i).phase i = .opened (some t) ∧ (w.step o a r i).store.disk.file? t = some .empty := by
  have htnil := Disk.ne_nil_of_not_isDirectory h.site.spare
  rw [step_waiting hp, h.site.made]
  simp only [h.site.create?_eq, h.site.through, phase_put, store_put, Disk.file?_set htnil, if_true,
    and_self]

theorem filled_step_step (h : Placed d s a m t w) (hij : i ≠ j) (hi : w.phase i = .waiting)
    (hj : w.phase j = .waiting) (r : RendererRecord) :
    Placed d s a m t ((w.step o a r i).step o a r i) ∧
      ((w.step o a r i).step o a r i).phase i = .filled ∧
      ((w.step o a r i).step o a r i).phase j = .waiting := by
  obtain ⟨hplaced, -⟩ := placed_step h hm ht r i
  obtain ⟨hopened, -⟩ := create_step h hi o r
  have hwaits : (w.step o a r i).phase j = .waiting := by
    rw [phase_step_of_ne o a r hij.symm (by rw [hi]; nofun) (by rw [hi]; nofun), hj]
  refine ⟨(placed_step hplaced hm ht r i).1, ?_, ?_⟩
  · rw [step_opened hopened, phase_put]
  · rw [phase_step_of_ne o a r hij.symm (by rw [hopened]; nofun) (by rw [hopened]; nofun), hwaits]

/-- A run that has filled its file when another one starts moves the empty file of that one. -/
theorem empty_of_overlap (h : Placed d s a m t w) (hij : i ≠ j) (hi : w.phase i = .waiting)
    (hj : w.phase j = .waiting) (r : RendererRecord) :
    (w.run o a r [i, i, j, i]).store.disk.read? a.renderer.file = some .empty := by
  obtain ⟨hfull, hfilled, hwaits⟩ := filled_step_step hm ht h hij hi hj r
  rw [run_cons, run_cons]
  generalize (w.step o a r i).step o a r i = u at hfull hfilled hwaits ⊢
  obtain ⟨hshared, -⟩ := placed_step hfull hm ht r j
  obtain ⟨-, hempty⟩ := create_step hfull hwaits o r
  have hstill : (u.step o a r j).phase i = .filled := by
    rw [phase_step_of_ne o a r hij (by rw [hwaits]; nofun) (by rw [hwaits]; nofun), hfilled]
  rw [run_cons]
  generalize u.step o a r j = v at hshared hempty hstill ⊢
  obtain ⟨hafter, heffect⟩ := placed_step hshared hm ht r i
  have hview : v.view m t i = ⟨.filled, some .empty, v.store.disk.file? m⟩ := by
    rw [view, hstill, hempty]
  rw [hview] at heffect
  rw [run_cons, run_nil, Disk.read?_eq, hafter.site.leads, Option.bind_some]
  generalize hv : (v.step o a r i).view m t i = after at heffect
  cases heffect with
  | place => exact congrArg View.placed hv
  | rest hrest => rcases hrest with hrest | hrest <;> cases hrest

theorem not_exclusive_of_overlap (h : Placed d s a m t w) (hij : i ≠ j) (hi : w.phase i = .waiting)
    (hj : w.phase j = .waiting) (r : RendererRecord) (rest : List ι) :
    ¬ Exclusive o a r w (i :: i :: j :: rest) := by
  obtain ⟨-, hfilled, hwaits⟩ := filled_step_step hm ht h hij hi hj r
  rintro ⟨-, -, hfirst, -⟩
  have hidle := hfirst hwaits i
  rw [hfilled] at hidle
  cases hidle

end Schedules

section Turns

private theorem exclusive_append (xs ys : List ι) : Exclusive o a r w (xs ++ ys) ↔
    Exclusive o a r w xs ∧ Exclusive o a r (w.run o a r xs) ys := by
  induction xs generalizing w with
  | nil => exact ⟨fun h => ⟨trivial, h⟩, And.right⟩
  | cons i xs ih =>
    have hrest := ih (w := w.step o a r i)
    exact (and_congr_right fun _ => hrest).trans and_assoc.symm

/-- The steps of one run, while no other one writes. -/
theorem exclusive_replicate (n : Nat) (h : ∀ j, j ≠ i → (w.phase j).isWriting = false) :
    Exclusive o a r w (List.replicate n i) ∧
      ∀ j, j ≠ i → ((w.run o a r (List.replicate n i)).phase j).isWriting = false := by
  induction n generalizing w with
  | zero => exact ⟨trivial, h⟩
  | succ n ih =>
    have hothers : ∀ j, j ≠ i → ((w.step o a r i).phase j).isWriting = false := fun j hj => by
      rw [isWriting_step_of_ne o a r w hj, h j hj]
    obtain ⟨hrest, hafter⟩ := ih hothers
    refine ⟨⟨fun hp j => ?_, hrest⟩, hafter⟩
    by_cases hj : j = i
    · rw [hj, hp]
      rfl
    · exact h j hj

/-- Runs that make all their steps one after the other are exclusive. -/
theorem exclusive_in_turn (runs : List ι) (h : ∀ j, (w.phase j).isWriting = false) :
    Exclusive o a r w (runs.flatMap (List.replicate 5)) := by
  induction runs generalizing w with
  | nil => trivial
  | cons i runs ih =>
    obtain ⟨hown, hothers⟩ := exclusive_replicate (o := o) (a := a) (r := r) 5 fun j (_ : j ≠ i) => h j
    rw [List.flatMap_cons, exclusive_append]
    refine ⟨hown, ih fun j => ?_⟩
    by_cases hj : j = i
    · have hleft := run_left o a r w (List.replicate 5 i) i
      have hmost := left_le (w.phase i)
      rw [List.count_replicate_self] at hleft
      rw [hj]
      exact isWriting_of_left (by omega)
    · exact hothers j hj

end Turns

section Start

variable (hmade : prepare s.disk a.renderer.file = (d, true)) (hsite : Site d a m t)

include hsite

omit [DecidableEq ι] in
theorem placed_start : Placed d s a m t (start { s with disk := d } : Race ι) := by
  refine ⟨hsite, .refl d, fun _ h => h, fun i l h => ?_⟩
  cases h

omit [DecidableEq ι] hsite in
theorem orderly_start (m t : Location) :
    Orderly (d.file? m) (content a) m t (start { s with disk := d } : Race ι) := by
  refine ⟨fun i _ h => ?_, fun i => ⟨nofun, nofun⟩, nofun, nofun, .inl rfl⟩
  cases h

include hmade

/-- The first step of all makes the directory, and it is as if it had been there. -/
theorem step_start (o : Options) (r : RendererRecord) (i : ι) :
    (start s).step o a r i = (start { s with disk := d }).step o a r i := by
  have hmade' : prepare (start (ι := ι) { s with disk := d }).store.disk a.renderer.file = (d, true) :=
    hsite.made
  have hstart : prepare (start (ι := ι) s).store.disk a.renderer.file = (d, true) := hmade
  rw [step_waiting (w := start s) rfl, step_waiting (w := start { s with disk := d }) rfl, hstart, hmade']
  rfl

theorem run_start (o : Options) (r : RendererRecord) {schedule : List ι} (h : schedule ≠ []) :
    (start s).run o a r schedule = (start { s with disk := d }).run o a r schedule := by
  cases schedule with
  | nil => exact absurd rfl h
  | cons i schedule => rw [run_cons, run_cons, step_start hmade hsite]

theorem exclusive_start (o : Options) (r : RendererRecord) (schedule : List ι) :
    Exclusive o a r (start s) schedule ↔ Exclusive o a r (start { s with disk := d }) schedule := by
  cases schedule with
  | nil => exact Iff.rfl
  | cons i schedule =>
    unfold Exclusive
    rw [step_start hmade hsite]
    exact Iff.rfl

end Start

end Race

end Steps

section Publishers

variable {o : Options} {b : Data} {s t : Store} {d e : Disk} {root : String} {a : Artifacts}

theorem exists_site (hd : d.Hosts o.cacheDir o.classPrefix) (ha : Produced o a) :
    prepare d a.renderer.file = (d.prepared o.cacheDir, true) ∧
      ∃ k, Site (d.prepared o.cacheDir) a (k ++ [rendererFileName a.renderer.className])
        (k ++ [rendererFileName a.renderer.className ++ ".tmp"]) := by
  obtain ⟨digits, hdigits, hs⟩ := a.renderer.snapshot.exists_digest
  obtain ⟨k, hk⟩ := hd.exists_directory
  obtain ⟨hleads, hfree⟩ := hk digits Renderer.json hdigits (.inl rfl)
  obtain ⟨hthrough, hspare⟩ := hk digits Renderer.unfinished hdigits (.inr rfl)
  have hname : rendererFileName a.renderer.className =
      String.ofList (Renderer.name o.classPrefix digits Renderer.json) := by
    rw [ha.className, hs, Renderer.rendererFileName_eq]
  have htemporary : rendererFileName a.renderer.className ++ ".tmp" =
      String.ofList (Renderer.name o.classPrefix digits Renderer.unfinished) := by
    rw [hname, ← String.toList_inj]
    simp [Renderer.name, Renderer.json, Renderer.unfinished]
  have hfile : a.renderer.file = Path.join o.cacheDir
      (String.ofList (Renderer.name o.classPrefix digits Renderer.json)) := by
    rw [ha.file, hname]
  have hparent : Path.parent? a.renderer.file = some (Path.holder o.cacheDir) := by
    rw [hfile]
    exact Path.parent?_join (Renderer.isName_name hd.noSlash hdigits.alphanumeric (.inl rfl))
  have hprepare : ∀ f : Disk, prepare f a.renderer.file = f.makeDirectory (Path.holder o.cacheDir) := by
    intro f
    rw [prepare, hparent]
  have hthroughName : Path.withExtension a.renderer.file "json.tmp" = Path.join o.cacheDir
      (String.ofList (Renderer.name o.classPrefix digits Renderer.unfinished)) := by
    rw [hfile, Renderer.withExtension_name hd.noSlash hdigits]
  refine ⟨by rw [hprepare, hd.makeDirectory_eq], k, ?_⟩
  rw [htemporary, hname]
  refine ⟨?_, by rw [hfile, hleads], hfree, by rw [hthroughName, hthrough], hspare, ?_⟩
  · rw [hprepare]
    exact hd.makeDirectory_of_sameShape (.refl _)
  · simp [Renderer.name, Renderer.json, Renderer.unfinished]

/-- A run that succeeds wrote the renderer that it composed, with its record. -/
theorem produced_of_regenerate (hp : o.classPrefix ≠ "") (hd : s.disk.Hosts o.cacheDir o.classPrefix)
    (h : regenerate Formatter.compile o b s = (.ok a, t)) : Produced o a ∧ ∃ r e, Recorded a r ∧
      a.renderer.save s.disk = (.ok (), e) ∧ t = deposit o a r { s with disk := e } := by
  constructor
  · rcases regenerate_cases hp hd b with ⟨a', e, hok, hproduced, -⟩ | ⟨e, herror⟩
    · rw [h] at hok
      cases hok
      exact hproduced
    · rw [h] at herror
      cases herror
  · rw [regenerate_eq] at h
    split at h
    · cases h
    · obtain ⟨r, e, hc, hsave, hstore⟩ := saved_of_publish h
      exact ⟨r, e, recorded_of_composed hc, hsave, hstore⟩

/-- A cache in files has a directory, where what is stored is in none of the files of a renderer. -/
structure Apart (o : Options) (d : Disk) (root : String) (a : Artifacts) : Prop where
  opens : ∃ l, d.Opens root l
  made : d.makeDirectory (Path.holder root) = (d, true)
  names : ∀ key, key = o.parserKey ∨ key = o.rendererKey → ∀ n, n = key ∨ n = Store.temporary key →
    Path.IsName n.toList ∧ n ≠ rendererFileName a.renderer.className ∧
      n ≠ rendererFileName a.renderer.className ++ ".tmp"

private theorem Apart.spares (h : Apart o d root a) (hk : d.Keeps e) (l : Location) {name : String}
    (hname : name = rendererFileName a.renderer.className ∨
      name = rendererFileName a.renderer.className ++ ".tmp") :
    Spares o e (.files root) (l ++ [name]) := by
  intro root' hroot key hkey f c hf
  cases hroot
  obtain ⟨k, hopens⟩ := h.opens
  have hkf := hk.trans hf
  have hnames := h.names key hkey
  have hput : Store.putFile f root key c =
      (f.replace (Path.join root key) (Path.join root (Store.temporary key)) c).1 :=
    Store.putFile_eq_replace (hnames key (.inl rfl)).1 (Disk.makeDirectory_of_keeps h.made hkf) c
  have hother : ∀ n, n = key ∨ n = Store.temporary key →
      f.resolve? (Path.join root n) ≠ some (l ++ [name]) := by
    intro n hn hr
    obtain ⟨hnName, hne, hne'⟩ := hnames n hn
    have hplace := (hopens.mono hkf).entry_of_resolve? (.inl hnName) hr
    rw [Disk.entry_of_isName hnName] at hplace
    have hsame : name = n := by simpa using (List.append_inj' hplace rfl).2
    rcases hname with rfl | rfl
    · exact hne hsame.symm
    · exact hne' hsame.symm
  rw [hput]
  exact (Disk.frame_replace f _ _ c).2 _ (hother key (.inl rfl)) (hother _ (.inr rfl))

/--
Runs that publish the same board at the same time. One of them alone does what a run does. They all
return just when none creates its temporary file while another one writes, and then the renderer's file,
if it is there, holds at any time what it held before or all that is written to it.
-/
theorem runs_return_iff_exclusive {ι : Type} [DecidableEq ι] (o : Options) (b : Data) (s t : Store)
    (a : Artifacts) (hp : o.classPrefix ≠ "") (hd : s.disk.Hosts o.cacheDir o.classPrefix)
    (hc : ∀ root, s.cache = .files root → Apart o s.disk root a)
    (hrun : regenerate Formatter.compile o b s = (.ok a, t)) :
    ∃ r, Recorded a r ∧ (∀ i : ι, ((Race.start s).run o a r [i, i, i, i, i]).store = t) ∧
      ∀ schedule : List ι,
        ((∀ i, 5 ≤ schedule.count i) →
          ((∀ i, ((Race.start s).run o a r schedule).phase i = .returned) ↔
            Race.Exclusive o a r (.start s) schedule)) ∧
        (Race.Exclusive o a r (.start s) schedule → ∀ before, before <+: schedule → ∀ c,
          ((Race.start s).run o a r before).store.disk.read? a.renderer.file = some c →
            c = content a ∨ (s.disk.prepared o.cacheDir).read? a.renderer.file = some c) := by
  obtain ⟨hproduced, r, e, hr, hsave, rfl⟩ := produced_of_regenerate hp hd hrun
  obtain ⟨hmade, k, hsite⟩ := exists_site hd hproduced
  have hkeeps : s.disk.Keeps (s.disk.prepared o.cacheDir) := Disk.makeDirectory_keeps s.disk _
  have hspares : ∀ name, (name = rendererFileName a.renderer.className ∨
      name = rendererFileName a.renderer.className ++ ".tmp") →
      Spares o (s.disk.prepared o.cacheDir) s.cache (k ++ [name]) := by
    intro name hname root hroot
    exact (hc root hroot).spares hkeeps k hname root rfl
  have hm := hspares _ (.inl rfl)
  have ht := hspares _ (.inr rfl)
  have hbefore : ∀ c, s.disk.read? a.renderer.file = some c →
      (s.disk.prepared o.cacheDir).read? a.renderer.file = some c :=
    fun c h => Disk.read?_makeDirectory h _
  generalize s.disk.prepared o.cacheDir = d at hmade hsite hm ht hbefore ⊢
  generalize k ++ [rendererFileName a.renderer.className] = m at hsite hm
  generalize k ++ [rendererFileName a.renderer.className ++ ".tmp"] = t at hsite ht
  have hplaced := Race.placed_start (ι := ι) (s := s) hsite
  refine ⟨r, hr, fun i => by rw [Race.run_alone, hsave], fun schedule => ⟨fun hcount => ?_, fun hex => ?_⟩⟩
  · cases schedule with
    | nil => exact ⟨fun _ => trivial, fun _ i => by cases hcount i⟩
    | cons i rest =>
      rw [Race.exclusive_start hmade hsite, Race.run_start hmade hsite o r (List.cons_ne_nil i rest)]
      constructor
      · exact Race.exclusive_of_returned hm ht hplaced _
      · intro hex j
        obtain ⟨-, horderly⟩ := Race.orderly_run hm ht hplaced (Race.orderly_start m t) _ hex _
          (List.prefix_refl _)
        exact Race.returned_of_count (hcount j) _ (horderly.clean j).2
  · intro before hb c hread
    cases before with
    | nil => exact .inr (hbefore c hread)
    | cons i rest =>
      rw [Race.exclusive_start hmade hsite] at hex
      obtain ⟨hafter, horderly⟩ := Race.orderly_run hm ht hplaced (Race.orderly_start m t) _ hex _ hb
      rw [Race.run_start hmade hsite o r (List.cons_ne_nil i rest), Disk.read?_eq, hafter.site.leads,
        Option.bind_some] at hread
      rw [Disk.read?_eq, hsite.leads, Option.bind_some]
      rcases horderly.placed with hsame | hwhole
      · exact .inr (hsame.symm.trans hread)
      · exact .inl (Option.some.inj (hread.symm.trans hwhole))

end Publishers

def sharedStore : Store := ⟨⟨[(["cache"], .directory)], []⟩, .files "/cache"⟩

theorem sameShape_sharedStore : (({} : Disk).prepared "/cache").SameShape sharedStore.disk := by
  rw [prepared_example]
  exact .refl _

theorem hosts_sharedStore : sharedStore.disk.Hosts "/cache" "Renderer_" :=
  hosts_example.of_sameShape sameShape_sharedStore

private theorem apart_sharedStore {a : Artifacts} (ha : Produced exampleOptions a) :
    Apart exampleOptions sharedStore.disk "/cache" a := by
  have hhead : (rendererFileName a.renderer.className).toList.head? = some 'R' := by
    have hstart : exampleOptions.classPrefix.toList.head? = some 'R' := by decide
    rw [ha.className, rendererFileName, String.toList_append, String.toList_append, List.head?_append,
      List.head?_append, hstart]
    rfl
  have hother : ∀ n : String, n.toList.head? ≠ some 'R' → n ≠ rendererFileName a.renderer.className ∧
      n ≠ rendererFileName a.renderer.className ++ ".tmp" := by
    intro n hn
    constructor
    · rintro rfl
      exact hn hhead
    · rintro rfl
      rw [String.toList_append, List.head?_append, hhead] at hn
      exact hn rfl
  refine ⟨⟨["cache"], by constructor <;> decide⟩,
    hosts_example.makeDirectory_of_sameShape sameShape_sharedStore, ?_⟩
  rintro key (rfl | rfl) n (rfl | rfl)
  all_goals exact ⟨by decide, hother _ (by decide)⟩

theorem regenerates_example {s : Store}
    (hd : s.disk.Hosts exampleOptions.cacheDir exampleOptions.classPrefix) :
    ∃ a t, regenerate Formatter.compile exampleOptions (.ofRows [] [] [] []) s = (.ok a, t) := by
  have hp : exampleOptions.classPrefix ≠ "" := by decide
  obtain ⟨a, ha⟩ := regenerate_plain [] [] [] [] (List.forall_mem_nil _) (List.forall_mem_nil _) hp hd
  rcases regenerate_cases hp hd (.ofRows [] [] [] []) with ⟨a', e, hrun, -⟩ | ⟨e, herror⟩
  · exact ⟨a', _, hrun⟩
  · rw [herror] at ha
    cases ha

/-- Two runs, one after the other, with a cache that is in the same directory. -/
theorem runs_return_iff_exclusive_example : ∃ a t r,
    sharedStore.disk.Hosts exampleOptions.cacheDir exampleOptions.classPrefix ∧
      Apart exampleOptions sharedStore.disk "/cache" a ∧
      regenerate Formatter.compile exampleOptions (.ofRows [] [] [] []) sharedStore = (.ok a, t) ∧
      Race.Exclusive exampleOptions a r (.start sharedStore) ([true, false].flatMap (List.replicate 5)) ∧
      ∀ i, ((Race.start sharedStore).run exampleOptions a r
        ([true, false].flatMap (List.replicate 5))).phase i = .returned := by
  have hp : exampleOptions.classPrefix ≠ "" := by decide
  obtain ⟨a, t, hrun⟩ := regenerates_example hosts_sharedStore
  obtain ⟨hproduced, -⟩ := produced_of_regenerate hp hosts_sharedStore hrun
  have hapart := apart_sharedStore hproduced
  have hc : ∀ root, sharedStore.cache = .files root → Apart exampleOptions sharedStore.disk root a := by
    rintro root ⟨⟩
    exact hapart
  obtain ⟨r, -, -, hschedules⟩ := runs_return_iff_exclusive exampleOptions (.ofRows [] [] [] [])
    sharedStore t a hp hosts_sharedStore hc hrun (ι := Bool)
  have hex : Race.Exclusive exampleOptions a r (.start sharedStore)
      ([true, false].flatMap (List.replicate 5)) := Race.exclusive_in_turn _ fun _ => rfl
  refine ⟨a, t, r, hosts_sharedStore, hapart, hrun, hex, ?_⟩
  exact ((hschedules _).1 (by decide)).2 hex

private theorem content_ne_empty (a : Artifacts) : content a ≠ .empty := by
  intro h
  have hread := a.renderer.snapshot.read_fileText a.renderer.className
  have hnone : Json.ofBytes? .empty = none := by decide +kernel
  unfold content at h
  rw [h, hnone] at hread
  cases hread

/-- Two runs, where the second starts between two steps of the first: it empties the file of the first. -/
theorem overlappingRuns_tear_renderer : ∃ a t r,
    regenerate Formatter.compile exampleOptions (.ofRows [] [] [] []) ⟨{}, .memory .empty⟩ = (.ok a, t) ∧
      (∀ i : Bool, ((Race.start ⟨{}, .memory .empty⟩).run exampleOptions a r [i, i, i, i, i]).store = t) ∧
      ((Race.start ⟨{}, .memory .empty⟩).run exampleOptions a r
        [true, true, false, true]).store.disk.read? a.renderer.file = some .empty ∧
      content a ≠ .empty ∧
      ∃ i, ((Race.start ⟨{}, .memory .empty⟩).run exampleOptions a r
        [true, true, false, true, true, true, false, false, false, false]).phase i = .failed := by
  have hp : exampleOptions.classPrefix ≠ "" := by decide
  obtain ⟨a, t, hrun⟩ := regenerates_example (s := ⟨{}, .memory .empty⟩) hosts_example
  obtain ⟨hproduced, r, e, -, hsave, hstore⟩ := produced_of_regenerate hp hosts_example hrun
  obtain ⟨hmade, k, hsite⟩ := exists_site hosts_example hproduced
  generalize ({} : Disk).prepared exampleOptions.cacheDir = d at hmade hsite
  generalize k ++ [rendererFileName a.renderer.className] = m at hsite
  generalize k ++ [rendererFileName a.renderer.className ++ ".tmp"] = u at hsite
  have hspares : ∀ l, Spares exampleOptions d (.memory .empty) l := fun l root h => by cases h
  have hplaced := Race.placed_start (ι := Bool) (s := ⟨{}, .memory .empty⟩) hsite
  have hne : true ≠ false := by decide
  refine ⟨a, t, r, hrun, fun i => by rw [Race.run_alone, hsave, hstore], ?_, content_ne_empty a, ?_⟩
  · rw [Race.run_start hmade hsite _ r (by decide)]
    exact Race.empty_of_overlap (hspares m) (hspares u) hplaced hne rfl rfl r
  · rw [Race.run_start hmade hsite _ r (by decide)]
    by_contra hnone
    have hcount : ∀ i, 5 ≤ [true, true, false, true, true, true, false, false, false, false].count i := by
      decide
    have hreturned := fun i => Race.returned_of_count (hcount i) ⟨d, .memory .empty⟩
      fun hf => hnone ⟨i, hf⟩
    exact Race.not_exclusive_of_overlap (hspares m) (hspares u) hplaced hne rfl rfl r _
      (Race.exclusive_of_returned (hspares m) (hspares u) hplaced _ hreturned)

end BoardMarkup.Board
