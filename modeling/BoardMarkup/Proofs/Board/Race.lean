import BoardMarkup.Proofs.Board.Composition
import BoardMarkup.Proofs.Store.Interleaving

/-! Runs that publish one board at the same time, step by step. -/
namespace BoardMarkup.Board

/-- How far a run has come. A file that is open is known by where it is, if it still is anywhere. -/
inductive Phase where
  | waiting
  | opened (handle : Option Location)
  | filled
  | placed
  | stored
  | returned
  | unplaced
  | failed

namespace Phase

/-- Whether a run has created its temporary file, and not renamed it yet. -/
def isWriting : Phase → Bool
  | .opened _ => true
  | .filled => true
  | _ => false

/-- A file that is open is moved, or replaced by one that is moved to its place. -/
def moved (source target : Option Location) : Phase → Phase
  | .opened (some l) =>
    .opened (if some l = source then target else if some l = target then none else some l)
  | p => p

def forget : Phase → Phase
  | .opened _ => .opened none
  | p => p

theorem forget_moved (source target : Option Location) (p : Phase) :
    (p.moved source target).forget = p.forget := by
  cases p with
  | opened handle => cases handle <;> rfl
  | _ => rfl

theorem isWriting_eq_of_forget {p q : Phase} (h : p.forget = q.forget) : p.isWriting = q.isWriting := by
  cases p <;> cases q <;> first | rfl | cases h

theorem ne_opened_of_not_isWriting {p : Phase} {handle : Option Location} (h : p.isWriting = false) :
    p ≠ .opened handle := by
  rintro rfl
  cases h

theorem eq_of_forget {p q : Phase} (h : p.forget = q.forget) (hq : q.isWriting = false) : p = q := by
  cases p <;> cases q <;> first | rfl | contradiction

end Phase

structure Race (ι : Type) where
  store : Store
  phase : ι → Phase

def prepare (d : Disk) (path : String) : Disk × Bool :=
  match Path.parent? path with
  | some parent => d.makeDirectory parent
  | none => (d, true)

def content (a : Artifacts) : ByteArray := (a.renderer.snapshot.fileText a.renderer.className).toUTF8

namespace Race

variable {ι : Type} [DecidableEq ι]

def start (s : Store) : Race ι := ⟨s, fun _ => .waiting⟩

def put (w : Race ι) (i : ι) (s : Store) (p : Phase) : Race ι := ⟨s, Function.update w.phase i p⟩

def moved (w : Race ι) (source target : Option Location) : Race ι :=
  { w with phase := fun i => (w.phase i).moved source target }

/--
The next step of a run: it creates the temporary file, or empties the one that is there, fills the file
it opened, renames what then has the temporary name, and stores the parser and the record. A temporary
file that cannot be renamed is removed.
-/
def step (o : Options) (a : Artifacts) (r : RendererRecord) (w : Race ι) (i : ι) : Race ι :=
  let path := a.renderer.file
  let through := Path.withExtension path "json.tmp"
  let d := w.store.disk
  match w.phase i with
  | .waiting =>
    match prepare d path with
    | (d, true) =>
      match d.create? through with
      | some e => w.put i { w.store with disk := e } (.opened (d.resolve? through))
      | none => w.put i { w.store with disk := d } .failed
    | (d, false) => w.put i { w.store with disk := d } .failed
  | .opened (some l) => w.put i { w.store with disk := d.set l (.file (content a)) } .filled
  | .opened none => w.put i w.store .filled
  | .filled =>
    match d.rename? through path with
    | some e =>
      (w.moved (d.resolve? through) (d.resolve? path)).put i { w.store with disk := e } .placed
    | none => w.put i w.store .unplaced
  | .placed => w.put i (w.store.putJson o.parserKey a.parser.toJson) .stored
  | .stored => w.put i (w.store.putJson o.rendererKey r.toJson) .returned
  | .unplaced =>
    match d.remove? through with
    | some e => (w.moved (d.resolve? through) none).put i { w.store with disk := e } .failed
    | none => w.put i w.store .failed
  | .returned => w
  | .failed => w

def run (o : Options) (a : Artifacts) (r : RendererRecord) (w : Race ι) (schedule : List ι) : Race ι :=
  schedule.foldl (step o a r) w

variable {o : Options} {a : Artifacts} {r : RendererRecord} {s : Store} {w : Race ι} {i j : ι}

@[simp] theorem run_nil (w : Race ι) : w.run o a r [] = w := rfl

@[simp] theorem run_cons (w : Race ι) (i : ι) (schedule : List ι) :
    w.run o a r (i :: schedule) = (w.step o a r i).run o a r schedule := rfl

@[simp] theorem phase_put (w : Race ι) (i : ι) (s : Store) (p : Phase) : (w.put i s p).phase i = p := by
  unfold put
  exact Function.update_self i p w.phase

theorem phase_put_of_ne (h : j ≠ i) (w : Race ι) (s : Store) (p : Phase) :
    (w.put i s p).phase j = w.phase j := by
  unfold put
  exact Function.update_of_ne h p w.phase

theorem phase_eq_of_phase_put {p q : Phase} (h : (w.put i s p).phase j = q) (hne : p ≠ q) :
    w.phase j = q := by
  by_cases hji : j = i
  · rw [hji, phase_put] at h
    exact absurd h hne
  · rwa [phase_put_of_ne hji] at h

@[simp] theorem store_put (w : Race ι) (i : ι) (s : Store) (p : Phase) : (w.put i s p).store = s := rfl

section Phases

theorem step_waiting (h : w.phase i = .waiting) : w.step o a r i =
    match prepare w.store.disk a.renderer.file with
    | (d, true) =>
      match d.create? (Path.withExtension a.renderer.file "json.tmp") with
      | some e => w.put i { w.store with disk := e }
        (.opened (d.resolve? (Path.withExtension a.renderer.file "json.tmp")))
      | none => w.put i { w.store with disk := d } .failed
    | (d, false) => w.put i { w.store with disk := d } .failed := by
  unfold step
  simp only [h]

theorem step_opened {l : Location} (h : w.phase i = .opened (some l)) : w.step o a r i =
    w.put i { w.store with disk := w.store.disk.set l (.file (content a)) } .filled := by
  unfold step
  simp only [h]

theorem step_opened_none (h : w.phase i = .opened none) :
    w.step o a r i = w.put i w.store .filled := by
  unfold step
  simp only [h]

theorem step_filled (h : w.phase i = .filled) : w.step o a r i =
    match w.store.disk.rename? (Path.withExtension a.renderer.file "json.tmp") a.renderer.file with
    | some e =>
      (w.moved (w.store.disk.resolve? (Path.withExtension a.renderer.file "json.tmp"))
        (w.store.disk.resolve? a.renderer.file)).put i { w.store with disk := e } .placed
    | none => w.put i w.store .unplaced := by
  unfold step
  simp only [h]

theorem step_placed (h : w.phase i = .placed) : w.step o a r i =
    w.put i (w.store.putJson o.parserKey a.parser.toJson) .stored := by
  unfold step
  simp only [h]

theorem step_stored (h : w.phase i = .stored) : w.step o a r i =
    w.put i (w.store.putJson o.rendererKey r.toJson) .returned := by
  unfold step
  simp only [h]

theorem step_unplaced (h : w.phase i = .unplaced) : w.step o a r i =
    match w.store.disk.remove? (Path.withExtension a.renderer.file "json.tmp") with
    | some e =>
      (w.moved (w.store.disk.resolve? (Path.withExtension a.renderer.file "json.tmp")) none).put i
        { w.store with disk := e } .failed
    | none => w.put i w.store .failed := by
  unfold step
  simp only [h]

theorem step_returned (h : w.phase i = .returned) : w.step o a r i = w := by
  unfold step
  simp only [h]

theorem step_failed (h : w.phase i = .failed) : w.step o a r i = w := by
  unfold step
  simp only [h]

end Phases

section Others

/-- Other runs stay in their phases, but for the places of the files they have open. -/
theorem forget_step (o : Options) (a : Artifacts) (r : RendererRecord) (w : Race ι) (h : j ≠ i) :
    ((w.step o a r i).phase j).forget = (w.phase j).forget := by
  have hput : ∀ s p, ((w.put i s p).phase j).forget = (w.phase j).forget := fun s p => by
    rw [phase_put_of_ne h]
  have hmoved : ∀ x y s p, (((w.moved x y).put i s p).phase j).forget = (w.phase j).forget := by
    intro x y s p
    rw [phase_put_of_ne h]
    exact Phase.forget_moved x y (w.phase j)
  unfold step
  simp only
  split
  · split
    · split <;> exact hput _ _
    · exact hput _ _
  · exact hput _ _
  · exact hput _ _
  · split
    · exact hmoved _ _ _ _
    · exact hput _ _
  · exact hput _ _
  · exact hput _ _
  · split
    · exact hmoved _ _ _ _
    · exact hput _ _
  · rfl
  · rfl

/-- Only where a file is moved or removed can the step of one run be noticed in the phase of another. -/
theorem phase_step_of_ne (o : Options) (a : Artifacts) (r : RendererRecord) (h : j ≠ i)
    (hf : w.phase i ≠ .filled) (hu : w.phase i ≠ .unplaced) :
    (w.step o a r i).phase j = w.phase j := by
  have hput : ∀ s p, (w.put i s p).phase j = w.phase j := fun s p => phase_put_of_ne h w s p
  unfold step
  simp only
  split
  · split
    · split <;> exact hput _ _
    · exact hput _ _
  · exact hput _ _
  · exact hput _ _
  · next hp => exact absurd hp hf
  · exact hput _ _
  · exact hput _ _
  · next hp => exact absurd hp hu
  · rfl
  · rfl

theorem isWriting_step_of_ne (o : Options) (a : Artifacts) (r : RendererRecord) (w : Race ι) (h : j ≠ i) :
    ((w.step o a r i).phase j).isWriting = (w.phase j).isWriting :=
  Phase.isWriting_eq_of_forget (forget_step o a r w h)

end Others

section Alone

theorem write?_of_create?_none {d : Disk} {path : String} {c : ByteArray} (h : d.create? path = none) :
    d.write? path c = none := by
  rw [Disk.write?, h]
  rfl

/-- Writing a file is to create it, and to fill what was created. -/
theorem write?_of_create? {d e : Disk} {path : String} (h : d.create? path = some e) (c : ByteArray) :
    ∃ l, d.resolve? path = some l ∧ d.write? path c = some (e.set l (.file c)) := by
  have hc := h
  unfold Disk.create? at hc
  obtain ⟨l, hl, hc⟩ := Option.bind_eq_some_iff.1 hc
  have hd : d.isDirectory l = false ∧ e = d.set l (.file .empty) := by
    split at hc
    · cases hc
    · next hn =>
      refine ⟨?_, (Option.some.inj hc).symm⟩
      simpa [Disk.isDirectory] using hn
  obtain ⟨hfree, rfl⟩ := hd
  have hs := Disk.sameShape_set hfree .empty
  refine ⟨l, hl, ?_⟩
  rw [Disk.write?, h]
  simp only [Option.bind_eq_bind, Option.bind_some]
  rw [Disk.fill?, hs.resolve?, hl]
  simp only [Option.bind_eq_bind, Option.bind_some]
  rw [Disk.node?_set (Disk.ne_nil_of_not_isDirectory hfree), if_pos rfl]
  rfl

private theorem save_eq (a : Artifacts) (d : Disk) : a.renderer.save d =
    match prepare d a.renderer.file with
    | (f, true) =>
      match f.replace a.renderer.file (Path.withExtension a.renderer.file "json.tmp") (content a) with
      | (e, true) => (.ok (), e)
      | (e, false) => (.error (.unwritable a.renderer.file), e)
    | (f, false) => (.error (.unwritable a.renderer.file), f) := by
  have hsave : a.renderer.save d =
      if (prepare d a.renderer.file).2 then
        match (prepare d a.renderer.file).1.replace a.renderer.file
          (Path.withExtension a.renderer.file "json.tmp") (content a) with
        | (e, true) => (.ok (), e)
        | (e, false) => (.error (.unwritable a.renderer.file), e)
      else (.error (.unwritable a.renderer.file), (prepare d a.renderer.file).1) := rfl
  rw [hsave]
  obtain ⟨f, made⟩ := prepare d a.renderer.file
  cases made with
  | false => rfl
  | true =>
    cases hr : f.replace a.renderer.file (Path.withExtension a.renderer.file "json.tmp") (content a) with
    | mk e done => cases done <;> simp only [hr, if_true]

/-- Five steps of one run, with no other between them, write what a run writes as a whole. -/
theorem run_alone (o : Options) (a : Artifacts) (r : RendererRecord) (s : Store) (i : ι) :
    ((start s).run o a r [i, i, i, i, i]).store =
      match a.renderer.save s.disk with
      | (.ok (), e) => deposit o a r { s with disk := e }
      | (.error _, e) => { s with disk := e } := by
  have hfailed : ∀ (w : Race ι) (t : Store), (w.put i t .failed).step o a r i = w.put i t .failed :=
    fun w t => step_failed (phase_put w i t .failed)
  rw [save_eq]
  simp only [run_cons, run_nil]
  cases hp : prepare s.disk a.renderer.file with
  | mk f made =>
    cases made with
    | false =>
      have hfirst : (start s).step o a r i = (start s).put i { s with disk := f } .failed := by
        unfold step start
        simp only [hp]
      simp only [hfirst, hfailed, store_put]
    | true =>
      cases hc : f.create? (Path.withExtension a.renderer.file "json.tmp") with
      | none =>
        have hfirst : (start s).step o a r i = (start s).put i { s with disk := f } .failed := by
          unfold step start
          simp only [hp, hc]
        simp only [hfirst, hfailed, store_put, Disk.replace, write?_of_create?_none hc]
      | some e =>
        obtain ⟨l, hl, hw⟩ := write?_of_create? hc (content a)
        have hfirst : ((start s).step o a r i).phase i = .opened (some l) ∧
            ((start s).step o a r i).store = { s with disk := e } := by
          rw [step_waiting (w := start s) rfl]
          unfold start
          simp only [hp, hc, hl]
          exact ⟨phase_put _ _ _ _, rfl⟩
        generalize (start s).step o a r i = first at hfirst
        obtain ⟨hphase, hstore⟩ := hfirst
        rw [step_opened hphase, hstore]
        generalize hg : e.set l (.file (content a)) = g at hw ⊢
        have hfilled := phase_put first i { s with disk := g } .filled
        rw [step_filled hfilled, store_put]
        unfold Disk.replace
        simp only [hw]
        cases hr : g.rename? (Path.withExtension a.renderer.file "json.tmp") a.renderer.file with
        | some h =>
          simp only
          rw [step_placed (phase_put _ _ _ _), step_stored (phase_put _ _ _ _)]
          rfl
        | none =>
          simp only
          rw [step_unplaced (phase_put _ _ _ _), store_put]
          cases hm : g.remove? (Path.withExtension a.renderer.file "json.tmp") with
          | some h => simp only [hfailed, store_put, Option.getD_some]
          | none => simp only [hfailed, store_put, Option.getD_none]

end Alone

section Finish

def left : Phase → Nat
  | .waiting => 5
  | .opened _ => 4
  | .filled => 3
  | .placed => 2
  | .stored => 1
  | .unplaced => 1
  | .returned => 0
  | .failed => 0

theorem left_le (p : Phase) : left p ≤ 5 := by
  cases p <;> simp [left]

theorem isWriting_of_left {p : Phase} (h : left p = 0) : p.isWriting = false := by
  cases p <;> first | rfl | cases h

private theorem left_eq_of_forget {p q : Phase} (h : p.forget = q.forget) : left p = left q := by
  cases p <;> cases q <;> first | rfl | contradiction

theorem step_left (o : Options) (a : Artifacts) (r : RendererRecord) (w : Race ι) (i j : ι) :
    left ((w.step o a r i).phase j) ≤ left (w.phase j) - if i == j then 1 else 0 := by
  by_cases hji : j = i
  · subst hji
    rw [if_pos (beq_self_eq_true j)]
    unfold step
    simp only
    split
    · next hp =>
      split
      · split <;> simp only [phase_put, left, hp] <;> omega
      · simp only [phase_put, left, hp]
        omega
    · next hp => simp only [phase_put, left, hp]; omega
    · next hp => simp only [phase_put, left, hp]; omega
    · next hp => split <;> simp only [phase_put, left, hp] <;> omega
    · next hp => simp only [phase_put, left, hp]; omega
    · next hp => simp only [phase_put, left, hp]; omega
    · next hp => split <;> simp only [phase_put, left, hp] <;> omega
    · next hp => simp only [left, hp]; omega
    · next hp => simp only [left, hp]; omega
  · have hij : ¬ (i == j) = true := fun he => hji (eq_of_beq he).symm
    rw [if_neg hij, left_eq_of_forget (forget_step o a r w hji)]
    omega

theorem run_left (o : Options) (a : Artifacts) (r : RendererRecord) (w : Race ι) (schedule : List ι)
    (j : ι) : left ((w.run o a r schedule).phase j) ≤ left (w.phase j) - schedule.count j := by
  unfold run
  exact foldl_le_sub_count (m := fun w : Race ι => left (w.phase j)) (fun w i => step_left o a r w i j) w
    schedule

/-- A run whose turn has come five times has returned, if it has not failed. -/
theorem returned_of_count {schedule : List ι} (h : 5 ≤ schedule.count i) (s : Store)
    (hf : ((start s).run o a r schedule).phase i ≠ .failed) :
    ((start s).run o a r schedule).phase i = .returned := by
  have hleft := run_left o a r (start s) schedule i
  have hstart : left ((start s : Race ι).phase i) = 5 := rfl
  rw [hstart] at hleft
  have hzero : left (((start s).run o a r schedule).phase i) = 0 := by omega
  cases hp : ((start s).run o a r schedule).phase i with
  | returned => rfl
  | failed => exact absurd hp hf
  | _ =>
    rw [hp] at hzero
    cases hzero

end Finish

end Race

end BoardMarkup.Board
