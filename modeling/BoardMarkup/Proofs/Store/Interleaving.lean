import BoardMarkup.Proofs.Store.Files

/-! Writes to one directory of files that run at the same time, step by step. -/
namespace BoardMarkup

/-- What each turn of one party lowers, and no turn of another raises, falls with its turns in a schedule. -/
theorem foldl_le_sub_count {σ ι : Type} [DecidableEq ι] {step : σ → ι → σ} {m : σ → Nat} {j : ι}
    (h : ∀ w i, m (step w i) ≤ m w - if i == j then 1 else 0) (w : σ) (schedule : List ι) :
    m (schedule.foldl step w) ≤ m w - schedule.count j := by
  induction schedule generalizing w with
  | nil => exact Nat.le_refl _
  | cons i schedule ih =>
    have hstep := h w i
    have hrest := ih (step w i)
    rw [List.foldl_cons, List.count_cons]
    omega

namespace Store

inductive Stage where
  | waiting
  | written
  | failed
  | done
  deriving DecidableEq

def writeTemporary (d : Disk) (root key : String) (content : ByteArray) : Disk × Bool :=
  let path := Path.join root key
  match Path.parent? path with
  | none => (d, false)
  | some parent =>
    match d.makeDirectory parent with
    | (d, true) =>
      match d.write? (Path.withExtension path "tmp") content with
      | some d => (d, true)
      | none => (d, false)
    | (d, false) => (d, false)

structure Writers (ι : Type) where
  disk : Disk
  stage : ι → Stage

namespace Writers

variable {ι : Type} [DecidableEq ι]

def start (d : Disk) : Writers ι := ⟨d, fun _ => .waiting⟩

def put (w : Writers ι) (i : ι) (d : Disk) (s : Stage) : Writers ι := ⟨d, Function.update w.stage i s⟩

/-- The next step of a write. A temporary file that cannot be renamed is removed. -/
def step (root : String) (keys : ι → String) (values : ι → ByteArray) (w : Writers ι) (i : ι) :
    Writers ι :=
  let path := Path.join root (keys i)
  let through := Path.withExtension path "tmp"
  match w.stage i with
  | .waiting =>
    match writeTemporary w.disk root (keys i) (values i) with
    | (d, true) => w.put i d .written
    | (d, false) => w.put i d .done
  | .written =>
    match w.disk.rename? through path with
    | some d => w.put i d .done
    | none => w.put i w.disk .failed
  | .failed => w.put i ((w.disk.remove? through).getD w.disk) .done
  | .done => w

def run (root : String) (keys : ι → String) (values : ι → ByteArray) (w : Writers ι)
    (schedule : List ι) : Writers ι :=
  schedule.foldl (step root keys values) w

variable {root : String} {keys : ι → String} {values : ι → ByteArray} {w : Writers ι} {i j : ι}

@[simp] theorem run_nil (w : Writers ι) : w.run root keys values [] = w := rfl

@[simp] theorem run_cons (w : Writers ι) (i : ι) (schedule : List ι) :
    w.run root keys values (i :: schedule) = (w.step root keys values i).run root keys values schedule :=
  rfl

@[simp] theorem stage_put (w : Writers ι) (i : ι) (d : Disk) (s : Stage) : (w.put i d s).stage i = s := by
  unfold put
  exact Function.update_self i s w.stage

theorem stage_put_of_ne (h : j ≠ i) (w : Writers ι) (d : Disk) (s : Stage) :
    (w.put i d s).stage j = w.stage j := by
  unfold put
  exact Function.update_of_ne h s w.stage

theorem stage_eq_of_stage_put {d : Disk} {s t : Stage} (h : (w.put i d s).stage j = t) (hne : s ≠ t) :
    w.stage j = t := by
  by_cases hji : j = i
  · rw [hji, stage_put] at h
    exact absurd h hne
  · rwa [stage_put_of_ne hji] at h

@[simp] theorem disk_put (w : Writers ι) (i : ι) (d : Disk) (s : Stage) : (w.put i d s).disk = d := rfl

private theorem putFile_eq (d : Disk) (root key : String) (content : ByteArray) :
    putFile d root key content =
      match writeTemporary d root key content with
      | (e, true) =>
        (e.rename? (Path.withExtension (Path.join root key) "tmp") (Path.join root key)).getD
          ((e.remove? (Path.withExtension (Path.join root key) "tmp")).getD e)
      | (e, false) => e := by
  unfold putFile writeTemporary
  simp only
  cases Path.parent? (Path.join root key) with
  | none => rfl
  | some parent =>
    simp only
    generalize d.makeDirectory parent = made
    obtain ⟨f, _ | _⟩ := made
    · rfl
    · unfold Disk.replace
      simp only
      cases f.write? (Path.withExtension (Path.join root key) "tmp") content with
      | none => rfl
      | some e =>
        simp only
        cases e.rename? (Path.withExtension (Path.join root key) "tmp") (Path.join root key) <;> rfl

theorem step_done (h : w.stage i = .done) : w.step root keys values i = w := by
  unfold step
  simp only [h]

/-- Three steps of one write, with no other between them, are the write as a whole. -/
theorem run_alone (root : String) (keys : ι → String) (values : ι → ByteArray) (d : Disk) (i : ι) :
    ((start d).run root keys values [i, i, i]).disk = putFile d root (keys i) (values i) := by
  have hdone : ∀ (w : Writers ι) (e : Disk), (w.put i e .done).step root keys values i =
      w.put i e .done := fun w e => step_done (stage_put w i e .done)
  have hfailed : ∀ (w : Writers ι) (e : Disk), ((w.put i e .failed).step root keys values i).disk =
      (e.remove? (Path.withExtension (Path.join root (keys i)) "tmp")).getD e := by
    intro w e
    unfold step
    simp only [stage_put, disk_put]
  rw [putFile_eq]
  simp only [run_cons, run_nil]
  cases hw : writeTemporary d root (keys i) (values i) with
  | mk e written =>
    have hfirst : (start d).step root keys values i =
        (start d).put i e (if written then .written else .done) := by
      unfold step start
      simp only [hw]
      cases written <;> rfl
    rw [hfirst]
    cases written with
    | false =>
      simp only [Bool.false_eq_true, if_false, hdone, disk_put]
    | true =>
      have hsecond : ((start d).put i e .written).step root keys values i =
          match e.rename? (Path.withExtension (Path.join root (keys i)) "tmp") (Path.join root (keys i)) with
          | some f => ((start d).put i e .written).put i f .done
          | none => ((start d).put i e .written).put i e .failed := by
        unfold step
        simp only [stage_put, disk_put]
      simp only [if_true, hsecond]
      cases e.rename? (Path.withExtension (Path.join root (keys i)) "tmp") (Path.join root (keys i)) with
      | some f => simp only [hdone, disk_put, Option.getD_some]
      | none => simp only [hfailed, Option.getD_none]

end Writers

/-- Neither key is written through the file of the other one, nor both through the same. -/
structure Apart (key other : String) : Prop where
  ne_temporary : key ≠ temporary other
  temporary_ne : temporary key ≠ other
  temporaries_ne : temporary key ≠ temporary other

structure Takes (d : Disk) (root : String) (l : Location) (key : String) : Prop where
  isName : Path.IsName key.toList
  leads : d.resolve? (Path.join root key) = some (l ++ [key])
  free : d.isDirectory (l ++ [key]) = false
  through : temporary key ≠ ".." →
    d.resolve? (Path.join root (temporary key)) = some (l ++ [temporary key])
  spare : temporary key ≠ ".." → d.isDirectory (l ++ [temporary key]) = false

/-- A directory that is there, in which all of these keys can be written. -/
structure Working {ι : Type} (d : Disk) (root : String) (l : Location) (keys : ι → String) : Prop where
  rooted : d.Rooted d.workingDirectory
  made : d.makeDirectory (Path.holder root) = (d, true)
  takes : ∀ i, Takes d root l (keys i)

section Effects

variable {ι : Type} {d e : Disk} {root : String} {l : Location} {keys : ι → String} {i : ι}
  {content : ByteArray}

theorem Takes.of_sameShape {key : String} (h : Takes d root l key) (hs : d.SameShape e) :
    Takes e root l key := by
  refine ⟨h.isName, (hs.resolve? _).trans h.leads, (hs.directories _).trans h.free, fun ht => ?_,
    fun ht => ?_⟩
  · exact (hs.resolve? _).trans (h.through ht)
  · exact (hs.directories _).trans (h.spare ht)

theorem Working.of_sameShape (h : Working d root l keys) (hs : d.SameShape e) :
    Working e root l keys := by
  refine ⟨h.rooted.workingDirectory_mono hs.keeps, ?_, fun i => (h.takes i).of_sameShape hs⟩
  exact Disk.makeDirectory_of_keeps h.made hs.keeps

theorem writeTemporary_eq (h : Working d root l keys) (i : ι) (content : ByteArray) :
    writeTemporary d root (keys i) content =
      match d.write? (Path.join root (temporary (keys i))) content with
      | some e => (e, true)
      | none => (d, false) := by
  have hn := (h.takes i).isName
  unfold writeTemporary
  simp only [parent?_join_key hn, h.made, withExtension_join_tmp hn]

theorem write?_dots (h : d.Rooted d.workingDirectory) (root : String) (content : ByteArray) :
    d.write? (Path.join root "..") content = none := by
  cases hw : d.write? (Path.join root "..") content with
  | none => rfl
  | some e =>
    obtain ⟨m, hm, hd, -⟩ := Disk.of_write? hw
    obtain ⟨k, name, -, hname⟩ := Disk.last_of_resolve? h hm hd
    rw [Path.fileName?_dots] at hname
    cases hname

end Effects

namespace Writers

variable {ι : Type} [DecidableEq ι] {d e : Disk} {root : String} {l : Location} {keys : ι → String}
  {values : ι → ByteArray} {w : Writers ι} {i j : ι} {k : String}

/-- The first step of a write, in a directory that works, makes its temporary file. -/
theorem step_waiting (h : Working w.disk root l keys) (ht : temporary (keys i) ≠ "..")
    (hs : w.stage i = .waiting) (values : ι → ByteArray) :
    ∃ e, w.step root keys values i = w.put i e .written ∧ w.disk.SameShape e ∧
      ∀ m, e.file? m = if m = l ++ [temporary (keys i)] then some (values i) else w.disk.file? m := by
  obtain ⟨e, hw, hshape, hn⟩ :=
    Disk.file?_write? ((h.takes i).through ht) ((h.takes i).spare ht) (values i)
  refine ⟨e, ?_, hshape, hn⟩
  unfold step
  simp only [hs, writeTemporary_eq h, hw]

/-- The second step moves what is in the temporary file then, if anything is. -/
theorem step_written (h : Working w.disk root l keys) (ht : temporary (keys i) ≠ "..")
    (hs : w.stage i = .written) (values : ι → ByteArray) :
    (w.disk.file? (l ++ [temporary (keys i)]) = none ∧
      w.step root keys values i = w.put i w.disk .failed) ∨
    ∃ content e, w.disk.file? (l ++ [temporary (keys i)]) = some content ∧
      w.step root keys values i = w.put i e .done ∧ w.disk.SameShape e ∧
      ∀ m, e.file? m = if m = l ++ [keys i] then some content
        else if m = l ++ [temporary (keys i)] then none else w.disk.file? m := by
  unfold step
  simp only [hs, withExtension_join_tmp (h.takes i).isName]
  rcases Disk.rename?_cases ((h.takes i).through ht) (h.takes i).leads (h.takes i).free with
    ⟨hf, hr⟩ | ⟨content, e, hf, hr, hshape, hn⟩
  · left
    exact ⟨hf, by rw [hr]⟩
  · right
    exact ⟨content, e, hf, by rw [hr], hshape, hn⟩

theorem step_failed (h : Working w.disk root l keys) (ht : temporary (keys i) ≠ "..")
    (hs : w.stage i = .failed) (values : ι → ByteArray) :
    ∃ e, w.step root keys values i = w.put i e .done ∧ w.disk.SameShape e ∧
      ∀ m, e.file? m = if m = l ++ [temporary (keys i)] then none else w.disk.file? m := by
  obtain ⟨hshape, hn⟩ := Disk.file?_getD_remove? ((h.takes i).through ht) ((h.takes i).spare ht)
  refine ⟨_, ?_, hshape, hn⟩
  unfold step
  simp only [hs, withExtension_join_tmp (h.takes i).isName]

/-- All that a step can do. -/
theorem step_cases (h : Working w.disk root l keys) (ht : temporary (keys i) ≠ "..")
    (values : ι → ByteArray) :
    (∃ e, w.stage i = .waiting ∧ w.step root keys values i = w.put i e .written ∧
      w.disk.SameShape e ∧
      ∀ m, e.file? m = if m = l ++ [temporary (keys i)] then some (values i) else w.disk.file? m) ∨
    (w.stage i = .written ∧ w.disk.file? (l ++ [temporary (keys i)]) = none ∧
      w.step root keys values i = w.put i w.disk .failed) ∨
    (∃ content e, w.stage i = .written ∧
      w.disk.file? (l ++ [temporary (keys i)]) = some content ∧
      w.step root keys values i = w.put i e .done ∧ w.disk.SameShape e ∧
      ∀ m, e.file? m = if m = l ++ [keys i] then some content
        else if m = l ++ [temporary (keys i)] then none else w.disk.file? m) ∨
    (∃ e, w.stage i = .failed ∧ w.step root keys values i = w.put i e .done ∧ w.disk.SameShape e ∧
      ∀ m, e.file? m = if m = l ++ [temporary (keys i)] then none else w.disk.file? m) ∨
    (w.stage i = .done ∧ w.step root keys values i = w) := by
  cases hs : w.stage i with
  | waiting =>
    obtain ⟨e, he, hshape, hn⟩ := step_waiting h ht hs values
    exact .inl ⟨e, rfl, he, hshape, hn⟩
  | written =>
    rcases step_written h ht hs values with ⟨hf, he⟩ | ⟨content, e, hf, he, hshape, hn⟩
    · exact .inr (.inl ⟨rfl, hf, he⟩)
    · exact .inr (.inr (.inl ⟨content, e, rfl, hf, he, hshape, hn⟩))
  | failed =>
    obtain ⟨e, he, hshape, hn⟩ := step_failed h ht hs values
    exact .inr (.inr (.inr (.inl ⟨e, rfl, he, hshape, hn⟩)))
  | done => exact .inr (.inr (.inr (.inr ⟨rfl, step_done hs⟩)))

def Has (l : Location) (keys : ι → String) (values : ι → ByteArray) (k : String) (d : Disk) : Prop :=
  ∃ j, keys j = k ∧ d.file? (l ++ [k]) = some (values j)

/-- Its temporary file has such a value, or is gone, and then the key itself has one. -/
def Pending (l : Location) (keys : ι → String) (values : ι → ByteArray) (k : String) (d : Disk) : Prop :=
  (∃ j, keys j = k ∧ d.file? (l ++ [temporary k]) = some (values j)) ∨
    (d.file? (l ++ [temporary k]) = none ∧ Has l keys values k d)

/-- What is true of one key at any time, from the disk `d` on. -/
structure Sound (d : Disk) (l : Location) (keys : ι → String) (values : ι → ByteArray) (k : String)
    (w : Writers ι) : Prop where
  read : w.disk.file? (l ++ [k]) = d.file? (l ++ [k]) ∨ Has l keys values k w.disk
  written : ∀ i, keys i = k → w.stage i = .written → Pending l keys values k w.disk
  failed : ∀ i, keys i = k → w.stage i = .failed → Has l keys values k w.disk ∧ temporary k ≠ k
  done : ∀ i, keys i = k → w.stage i = .done → Has l keys values k w.disk

omit [DecidableEq ι] in
theorem sound_start (d : Disk) (k : String) : Sound d l keys values k (start d) := by
  refine ⟨.inl rfl, fun i _ h => ?_, fun i _ h => ?_, fun i _ h => ?_⟩ <;> cases h

namespace Sound

/-- A write under another key, with another temporary file, is not noticed. -/
theorem put_of_apart (h : Sound d l keys values k w) (hk : keys i ≠ k) {s : Stage}
    (hkey : e.file? (l ++ [k]) = w.disk.file? (l ++ [k]))
    (htmp : e.file? (l ++ [temporary k]) = w.disk.file? (l ++ [temporary k])) :
    Sound d l keys values k (w.put i e s) := by
  have hstage : ∀ j, keys j = k → (w.put i e s).stage j = w.stage j := by
    intro j hj
    refine stage_put_of_ne ?_ w e s
    rintro rfl
    exact hk hj
  have hhas : Has l keys values k w.disk → Has l keys values k e := by
    rintro ⟨j, hj, hv⟩
    exact ⟨j, hj, hkey.trans hv⟩
  refine ⟨?_, fun j hj hs => ?_, fun j hj hs => ?_, fun j hj hs => ?_⟩
  · rcases h.read with hr | hr
    · exact .inl (hkey.trans hr)
    · exact .inr (hhas hr)
  · rw [hstage j hj] at hs
    rcases h.written j hj hs with ⟨x, hx, hv⟩ | ⟨hnone, hr⟩
    · exact .inl ⟨x, hx, htmp.trans hv⟩
    · exact .inr ⟨htmp.trans hnone, hhas hr⟩
  · rw [hstage j hj] at hs
    exact ⟨hhas (h.failed j hj hs).1, (h.failed j hj hs).2⟩
  · rw [hstage j hj] at hs
    exact hhas (h.done j hj hs)

/-- Once a value that was put under a key is there, it is all that its writes depend on. -/
theorem put_of_has {s : Stage} (hhas : Has l keys values k e)
    (hwritten : Pending l keys values k e)
    (hfailed : ∀ j, keys j = k → (w.put i e s).stage j = .failed → temporary k ≠ k) :
    Sound d l keys values k (w.put i e s) :=
  ⟨.inr hhas, fun _ _ _ => hwritten, fun j hj hs => ⟨hhas, hfailed j hj hs⟩, fun _ _ _ => hhas⟩

theorem step_of_apart (h : Sound d l keys values k w) (hw : Working w.disk root l keys)
    (ht : temporary (keys i) ≠ "..") (hk : keys i ≠ k) (hapart : Apart (keys i) k) :
    Sound d l keys values k (w.step root keys values i) := by
  have hne : ∀ {a b : String}, a ≠ b → l ++ [b] ≠ l ++ [a] := by
    intro a b hab he
    exact hab (by simpa using he.symm)
  have hkey := hne hk
  have hkeyTmp := hne hapart.temporary_ne
  have htmpKey := hne hapart.ne_temporary
  have htmp := hne hapart.temporaries_ne
  rcases step_cases hw ht values with ⟨e, -, he, -, hn⟩ | ⟨-, -, he⟩ | ⟨content, e, -, -, he, -, hn⟩ |
    ⟨e, -, he, -, hn⟩ | ⟨-, he⟩
  · rw [he]
    exact h.put_of_apart hk (by rw [hn, if_neg hkeyTmp]) (by rw [hn, if_neg htmp])
  · rw [he]
    exact h.put_of_apart hk rfl rfl
  · rw [he]
    exact h.put_of_apart hk (by rw [hn, if_neg hkey, if_neg hkeyTmp])
      (by rw [hn, if_neg htmpKey, if_neg htmp])
  · rw [he]
    exact h.put_of_apart hk (by rw [hn, if_neg hkeyTmp]) (by rw [hn, if_neg htmp])
  · rwa [he]

/-- The first step of a write puts its value in the temporary file. -/
theorem put_written (h : Sound d l keys values (keys i) w)
    (hn : ∀ m, e.file? m = if m = l ++ [temporary (keys i)] then some (values i) else w.disk.file? m) :
    Sound d l keys values (keys i) (w.put i e .written) := by
  have htmp : e.file? (l ++ [temporary (keys i)]) = some (values i) := by rw [hn, if_pos rfl]
  have hpending : Pending l keys values (keys i) e := .inl ⟨i, rfl, htmp⟩
  by_cases hself : temporary (keys i) = keys i
  · -- then the key is written at once
    have hhas : Has l keys values (keys i) e := ⟨i, rfl, by rwa [hself] at htmp⟩
    exact put_of_has hhas hpending fun j hj hs => (h.failed j hj (stage_eq_of_stage_put hs nofun)).2
  · have hkey : e.file? (l ++ [keys i]) = w.disk.file? (l ++ [keys i]) := by
      rw [hn, if_neg]
      intro he
      exact hself (by simpa using he.symm)
    have hhas : Has l keys values (keys i) w.disk → Has l keys values (keys i) e := by
      rintro ⟨j, hj, hv⟩
      exact ⟨j, hj, hkey.trans hv⟩
    refine ⟨?_, fun _ _ _ => hpending, fun j hj hs => ?_, fun j hj hs => ?_⟩
    · rcases h.read with hr | hr
      · exact .inl (hkey.trans hr)
      · exact .inr (hhas hr)
    · exact ⟨hhas (h.failed j hj (stage_eq_of_stage_put hs nofun)).1, hself⟩
    · exact hhas (h.done j hj (stage_eq_of_stage_put hs nofun))

private theorem step_own (h : Sound d l keys values (keys i) w) (hw : Working w.disk root l keys)
    (ht : temporary (keys i) ≠ "..") :
    Sound d l keys values (keys i) (w.step root keys values i) := by
  have hold : ∀ e s, s ≠ .failed → ∀ j, keys j = keys i → (w.put i e s).stage j = .failed →
      temporary (keys i) ≠ keys i :=
    fun e s hne j hj hs => (h.failed j hj (stage_eq_of_stage_put hs hne)).2
  rcases step_cases hw ht values with ⟨e, -, he, -, hn⟩ | ⟨hs, hnone, he⟩ |
    ⟨content, e, hs, hsome, he, -, hn⟩ | ⟨e, hs, he, -, hn⟩ | ⟨-, he⟩
  · rw [he]
    exact h.put_written hn
  · -- another write under the same key has renamed the temporary file
    have hhas : Has l keys values (keys i) w.disk := by
      rcases h.written i rfl hs with ⟨x, hx, hv⟩ | ⟨-, hr⟩
      · rw [hnone] at hv
        cases hv
      · exact hr
    rw [he]
    refine put_of_has hhas (.inr ⟨hnone, hhas⟩) fun j hj hs => ?_
    intro hself
    obtain ⟨x, hx, hv⟩ := hhas
    rw [hself, hv] at hnone
    cases hnone
  · have hvalue : ∃ x, keys x = keys i ∧ content = values x := by
      rcases h.written i rfl hs with ⟨x, hx, hv⟩ | ⟨hnone, -⟩
      · rw [hsome] at hv
        exact ⟨x, hx, Option.some.inj hv⟩
      · rw [hsome] at hnone
        cases hnone
    obtain ⟨x, hx, rfl⟩ := hvalue
    have hhas : Has l keys values (keys i) e := ⟨x, hx, by rw [hn, if_pos rfl]⟩
    have hpending : Pending l keys values (keys i) e := by
      by_cases hself : temporary (keys i) = keys i
      · exact .inl ⟨x, hx, by rw [hself, hn, if_pos rfl]⟩
      · refine .inr ⟨?_, hhas⟩
        rw [hn, if_neg, if_pos rfl]
        intro he
        exact hself (by simpa using he)
    rw [he]
    exact put_of_has hhas hpending (hold e .done nofun)
  · obtain ⟨⟨x, hx, hv⟩, hself⟩ := h.failed i rfl hs
    have hhas : Has l keys values (keys i) e := by
      refine ⟨x, hx, ?_⟩
      rw [hn, if_neg, hv]
      intro he
      exact hself (by simpa using he.symm)
    rw [he]
    exact put_of_has hhas (.inr ⟨by rw [hn, if_pos rfl], hhas⟩) (hold e .done nofun)
  · rwa [he]

end Sound

private theorem sameShape_step (hw : Working w.disk root l keys) (ht : temporary (keys i) ≠ "..") :
    w.disk.SameShape (w.step root keys values i).disk := by
  rcases step_cases hw ht values with ⟨e, -, he, hs, -⟩ | ⟨-, -, he⟩ | ⟨content, e, -, -, he, hs, -⟩ |
    ⟨e, -, he, hs, -⟩ | ⟨-, he⟩ <;> rw [he]
  · exact hs
  · exact .refl _
  · exact hs
  · exact hs
  · exact .refl _

/-- Keys that share no file keep their values apart, in whatever order the steps are made. -/
theorem sound_run (hw : Working w.disk root l keys) (ht : ∀ i, temporary (keys i) ≠ "..")
    (hapart : ∀ i, keys i ≠ k → Apart (keys i) k) (h : Sound d l keys values k w)
    (schedule : List ι) :
    w.disk.SameShape (w.run root keys values schedule).disk ∧
      Sound d l keys values k (w.run root keys values schedule) := by
  induction schedule generalizing w with
  | nil => exact ⟨.refl _, h⟩
  | cons i schedule ih =>
    have hs : w.disk.SameShape (w.step root keys values i).disk := sameShape_step hw (ht i)
    have hstep : Sound d l keys values k (w.step root keys values i) := by
      by_cases hk : keys i = k
      · subst hk
        exact h.step_own hw (ht i)
      · exact h.step_of_apart hw (ht i) hk (hapart i hk)
    obtain ⟨hshape, hsound⟩ := ih (hw.of_sameShape hs) hstep
    exact ⟨hs.trans hshape, hsound⟩

section Finish

def left : Stage → Nat
  | .waiting => 3
  | .written => 2
  | .failed => 1
  | .done => 0

theorem step_left (root : String) (keys : ι → String) (values : ι → ByteArray) (w : Writers ι)
    (i j : ι) : left ((w.step root keys values i).stage j) ≤ left (w.stage j) - if i == j then 1 else 0 := by
  by_cases hji : j = i
  · subst hji
    rw [if_pos (beq_self_eq_true j)]
    unfold step
    simp only
    cases hs : w.stage j with
    | waiting =>
      simp only
      rcases writeTemporary w.disk root (keys j) (values j) with ⟨e, _ | _⟩ <;>
        simp only [stage_put, left] <;> omega
    | written =>
      simp only
      split <;> simp only [stage_put, left] <;> omega
    | failed => simp only [stage_put, left]; omega
    | done => simp only [hs, left]; omega
  · have hij : ¬ (i == j) = true := fun he => hji (eq_of_beq he).symm
    rw [if_neg hij]
    have hstage : (w.step root keys values i).stage j = w.stage j := by
      unfold step
      simp only
      split
      · split <;> exact stage_put_of_ne hji _ _ _
      · split <;> exact stage_put_of_ne hji _ _ _
      · exact stage_put_of_ne hji _ _ _
      · rfl
    rw [hstage]
    omega

theorem run_left (root : String) (keys : ι → String) (values : ι → ByteArray) (w : Writers ι)
    (schedule : List ι) (j : ι) :
    left ((w.run root keys values schedule).stage j) ≤ left (w.stage j) - schedule.count j := by
  unfold run
  exact foldl_le_sub_count (m := fun w : Writers ι => left (w.stage j))
    (fun w i => step_left root keys values w i j) w schedule

/-- A write whose turn has come three times is done. -/
theorem done_of_count {schedule : List ι} (h : 3 ≤ schedule.count i) (d : Disk) :
    ((start d).run root keys values schedule).stage i = .done := by
  have hleft := run_left root keys values (start d) schedule i
  have hstart : left ((start d : Writers ι).stage i) = 3 := rfl
  cases hs : ((start d).run root keys values schedule).stage i with
  | done => rfl
  | waiting => rw [hs, hstart] at hleft; simp only [left] at hleft; omega
  | written => rw [hs, hstart] at hleft; simp only [left] at hleft; omega
  | failed => rw [hs, hstart] at hleft; simp only [left] at hleft; omega

end Finish

/--
Every key reads as it did on the disk `d`, or as a value that was put under it. It is the latter once
one of its writes is done.
-/
structure Unmixed (d : Disk) (root : String) (keys : ι → String) (values : ι → ByteArray)
    (w : Writers ι) : Prop where
  read : ∀ i, w.disk.read? (Path.join root (keys i)) = d.read? (Path.join root (keys i)) ∨
    ∃ j, keys j = keys i ∧ w.disk.read? (Path.join root (keys i)) = some (values j)
  done : ∀ i, w.stage i = .done →
    ∃ j, keys j = keys i ∧ w.disk.read? (Path.join root (keys i)) = some (values j)

omit [DecidableEq ι] in
theorem read?_key (h : Working d root l keys) (hs : d.SameShape e) (i : ι) :
    e.read? (Path.join root (keys i)) = e.file? (l ++ [keys i]) := by
  rw [Disk.read?_eq, hs.resolve?, (h.takes i).leads, Option.bind_some]

theorem unmixed_run (h : Working d root l keys) (ht : ∀ i, temporary (keys i) ≠ "..")
    (hapart : ∀ i j, keys i ≠ keys j → Apart (keys i) (keys j)) (values : ι → ByteArray)
    (schedule : List ι) :
    Unmixed d root keys values ((start d).run root keys values schedule) := by
  have hsound : ∀ i, d.SameShape ((start d).run root keys values schedule).disk ∧
      Sound d l keys values (keys i) ((start d).run root keys values schedule) := by
    intro i
    have hstart : Working (start d : Writers ι).disk root l keys := h
    exact sound_run hstart ht (fun j hne => hapart j i hne) (sound_start d (keys i)) schedule
  constructor
  · intro i
    obtain ⟨hs, hi⟩ := hsound i
    rw [read?_key h hs, read?_key h (.refl d)]
    exact hi.read
  · intro i hdone
    obtain ⟨hs, hi⟩ := hsound i
    rw [read?_key h hs]
    exact hi.done i rfl hdone

section Mixed

theorem exists_fresh (o : Option ByteArray) : ∃ v, o ≠ some v := by
  by_cases ho : o = some .empty
  · refine ⟨⟨#[0]⟩, ?_⟩
    rw [ho]
    decide
  · exact ⟨.empty, ho⟩

omit [DecidableEq ι] in
/-- Values of which that of another key is no value of this one. -/
theorem exists_values (keys : ι → String) (k : String) (o : Option ByteArray) :
    ∃ values : ι → ByteArray, ∀ j, keys j ≠ k →
      o ≠ some (values j) ∧ ∀ x, keys x = k → values j ≠ values x := by
  obtain ⟨b, hb⟩ := exists_fresh o
  obtain ⟨a, ha⟩ := exists_fresh (some b)
  refine ⟨fun x => if keys x = k then a else b, fun j hj => ?_⟩
  simp only [if_neg hj]
  refine ⟨hb, fun x hx => ?_⟩
  rw [if_pos hx]
  exact fun hab => ha (by rw [hab])

/-- A key that reads as the value of another key is mixed up with it. -/
theorem not_read_of_unmixed {i j : ι} (hall : ∀ values schedule,
      Unmixed d root keys values ((start d).run root keys values schedule))
    (hne : keys j ≠ keys i) (schedule : List ι) : ∃ values : ι → ByteArray,
    ((start d).run root keys values schedule).disk.read? (Path.join root (keys i)) ≠
      some (values j) := by
  obtain ⟨values, hvalues⟩ := exists_values keys (keys i) (d.read? (Path.join root (keys i)))
  obtain ⟨hold, hother⟩ := hvalues j hne
  refine ⟨values, fun hread => ?_⟩
  rcases (hall values schedule).read i with hr | ⟨x, hx, hr⟩
  · exact hold (hr ▸ hread)
  · rw [hread] at hr
    exact hother x hx (Option.some.inj hr)

variable {j : ι}

/-- A write whose temporary file is that of a key is seen under that key. -/
theorem ne_temporary_of_unmixed (h : Working d root l keys) (ht : ∀ i, temporary (keys i) ≠ "..")
    (hall : ∀ values schedule,
      Unmixed d root keys values ((start d).run root keys values schedule))
    (hne : keys j ≠ keys i) : keys i ≠ temporary (keys j) := by
  intro he
  obtain ⟨values, hread⟩ := not_read_of_unmixed hall hne [j]
  have hstart : Working (start d : Writers ι).disk root l keys := h
  obtain ⟨e, hstep, hs, hn⟩ := step_waiting hstart (ht j) rfl values
  apply hread
  rw [run_cons, run_nil, hstep, disk_put, read?_key h hs, hn, he, if_pos rfl]

/-- Of two writes through one file, the first to be renamed takes the value of the last to be written. -/
theorem temporaries_ne_of_unmixed (h : Working d root l keys) (ht : ∀ i, temporary (keys i) ≠ "..")
    (hall : ∀ values schedule,
      Unmixed d root keys values ((start d).run root keys values schedule))
    (hne : keys j ≠ keys i) : temporary (keys i) ≠ temporary (keys j) := by
  intro he
  obtain ⟨values, hread⟩ := not_read_of_unmixed hall hne [i, j, i]
  have hji : j ≠ i := fun h => hne (by rw [h])
  have hstart : Working (start d : Writers ι).disk root l keys := h
  obtain ⟨e, hfirst, hs, -⟩ := step_waiting hstart (ht i) rfl values
  have hwaiting : ((start d).put i e .written).stage j = .waiting := stage_put_of_ne hji _ _ _
  have hworking : Working ((start d).put i e .written).disk root l keys := hstart.of_sameShape hs
  obtain ⟨f, hsecond, hs', hn⟩ := step_waiting hworking (ht j) hwaiting values
  have hwritten : (((start d).put i e .written).put j f .written).stage i = .written := by
    rw [stage_put_of_ne hji.symm, stage_put]
  have hworking' : Working (((start d).put i e .written).put j f .written).disk root l keys :=
    hworking.of_sameShape hs'
  have hvalue : f.file? (l ++ [temporary (keys i)]) = some (values j) := by
    rw [hn, he, if_pos rfl]
  apply hread
  rw [run_cons, run_cons, run_cons, run_nil, hfirst, hsecond]
  rcases step_written hworking' (ht i) hwritten values with ⟨hf, -⟩ | ⟨content, g, hf, hthird, hs'', hn'⟩
  · rw [disk_put, hvalue] at hf
    cases hf
  · rw [disk_put, hvalue] at hf
    cases hf
    rw [hthird, disk_put, read?_key h ((hs.trans hs').trans hs''), hn', if_pos rfl]

/-- A key whose temporary file would be the parent directory is never written. -/
theorem ne_dots_of_unmixed (h : Working d root l keys)
    (hall : ∀ values schedule,
      Unmixed d root keys values ((start d).run root keys values schedule)) (i : ι) :
    temporary (keys i) ≠ ".." := by
  intro he
  obtain ⟨v, hv⟩ := exists_fresh (d.read? (Path.join root (keys i)))
  have hwrite : writeTemporary d root (keys i) v = (d, false) := by
    rw [writeTemporary_eq h, he, write?_dots h.rooted]
  have hstep : (start d).step root keys (fun _ => v) i = (start d).put i d .done := by
    unfold step start
    simp only [hwrite]
  have hdone : ((start d).run root keys (fun _ => v) [i]).stage i = .done := by
    rw [run_cons, run_nil, hstep, stage_put]
  obtain ⟨j, -, hread⟩ := (hall (fun _ => v) [i]).done i hdone
  rw [run_cons, run_nil, hstep, disk_put] at hread
  exact hv hread

end Mixed

/--
The steps of a write, one after the other, are the write as a whole. Writes to one directory that works
finish, whatever the order of their steps is. They keep the values of different keys apart in every order and
for all values just when no key's temporary file is that of another key, no two keys share one, and none is
the parent directory.
-/
theorem unmixed_iff (d : Disk) (root : String) (l : Location) (keys : ι → String)
    (h : Working d root l keys) :
    (∀ values i, ((start d).run root keys values [i, i, i]).disk = putFile d root (keys i) (values i)) ∧
    (∀ values schedule i, 3 ≤ schedule.count i →
      ((start d).run root keys values schedule).stage i = .done) ∧
    ((∀ values schedule, Unmixed d root keys values ((start d).run root keys values schedule)) ↔
      (∀ i, temporary (keys i) ≠ "..") ∧ ∀ i j, keys i ≠ keys j → Apart (keys i) (keys j)) := by
  refine ⟨fun values i => run_alone root keys values d i,
    fun values schedule i hcount => done_of_count hcount d, fun hall => ?_, fun ⟨ht, hapart⟩ => ?_⟩
  · have ht := ne_dots_of_unmixed h hall
    refine ⟨ht, fun i j hne => ⟨?_, ?_, ?_⟩⟩
    · exact ne_temporary_of_unmixed h ht hall (Ne.symm hne)
    · exact (ne_temporary_of_unmixed h ht hall hne).symm
    · exact temporaries_ne_of_unmixed h ht hall (Ne.symm hne)
  · exact fun values schedule => unmixed_run h ht hapart values schedule

def exampleKeys (b : Bool) : String := if b then "parser" else "renderer"

theorem working_example : Working emptyDirectory "/c" ["c"] exampleKeys := by
  refine ⟨Disk.rooted_nil _, by decide +kernel, fun b => ?_⟩
  constructor <;> cases b <;> decide

def exampleValues (b : Bool) : ByteArray := if b then "1".toUTF8 else "2".toUTF8

/-- Both keys have their values when their steps alternate. -/
theorem unmixed_iff_example : Working emptyDirectory "/c" ["c"] exampleKeys ∧
    Unmixed emptyDirectory "/c" exampleKeys exampleValues
      ((start emptyDirectory).run "/c" exampleKeys exampleValues [true, false, true, false]) := by
  have hiff := (unmixed_iff emptyDirectory "/c" ["c"] exampleKeys working_example).2.2
  refine ⟨working_example, hiff.2 ⟨by decide, fun i j hne => ?_⟩ exampleValues _⟩
  cases i <;> cases j
  · exact absurd rfl hne
  · constructor <;> decide
  · constructor <;> decide
  · exact absurd rfl hne

def clashingKeys (b : Bool) : String := if b then "a.x" else "a.y"

/-- Both writes finish, one key has the value of the other, and that one has none. -/
theorem clashingKeys_are_mixed : Working emptyDirectory "/c" ["c"] clashingKeys ∧
    (∀ b, ((start emptyDirectory).run "/c" clashingKeys exampleValues
      [true, false, true, false, false]).stage b = .done) ∧
    ((start emptyDirectory).run "/c" clashingKeys exampleValues
      [true, false, true, false, false]).disk.read? (Path.join "/c" "a.x") = some "2".toUTF8 ∧
    ((start emptyDirectory).run "/c" clashingKeys exampleValues
      [true, false, true, false, false]).disk.read? (Path.join "/c" "a.y") = none := by
  refine ⟨⟨Disk.rooted_nil _, by decide +kernel, fun b => ?_⟩, ?_⟩
  · constructor <;> cases b <;> decide
  · decide +kernel

end Writers

end Store

end BoardMarkup
