import BoardMarkup.Proofs.Board.Registration
import BoardMarkup.Proofs.Censor.Replacement

/-! Tags that come and go with the censor, beside those of BBCodes. -/
namespace BoardMarkup.Formatter

open BBCode Censor

def loadWords (f : Formatter) (tagName : String) (adds : List (String × Option String)) : Formatter :=
  let f := f.loadCensor tagName
  { f with censor := f.censor.map fun c => adds.foldl (fun c a => c.add a.1 a.2) c }

inductive Call where
  | define (usage : String) (t : Template)
  | remove (name : String)
  | load (tagName : String) (adds : List (String × Option String))
  | detach

/-- What a call makes of a formatter. One that fails leaves it as it is. -/
def call (f : Formatter) : Call → Formatter
  | .define usage t =>
    match f.define usage t with
    | .ok (_, g) => g
    | .error _ => f
  | .remove name =>
    match f.remove? name with
    | some (_, g) => g
    | none => f
  | .load tagName adds => f.loadWords tagName adds
  | .detach => f.detachCensor.2

def callAll (f : Formatter) (calls : List Call) : Formatter := calls.foldl call f

/-- Whether a call, if it loads a censor, leaves alone the tags and the censor that are there. -/
def isFree (f : Formatter) : Call → Bool
  | .load tagName _ => f.censor.isNone && !f.tags.contains tagName
  | _ => true

/-- Whether the censor is only loaded when there is none, with a tag that is new. -/
def isOrderly (f : Formatter) : List Call → Bool
  | [] => true
  | c :: rest => f.isFree c && (f.call c).isOrderly rest

variable {f g : Formatter} {tagName name : String} {adds : List (String × Option String)}

section Censor

theorem loadWords_eq (f : Formatter) (tagName : String) (adds : List (String × Option String)) :
    f.loadWords tagName adds = { f with
      tags := f.tags.insert tagName Plugin.tagTemplate
      censor := some ⟨tagName, registeredWords adds⟩ } := by
  simp only [loadWords, loadCensor, Option.map_some, Plugin.foldl_add, List.nil_append]

theorem detachCensor_loadWords (f : Formatter) (tagName : String) (adds : List (String × Option String)) :
    (f.loadWords tagName adds).detachCensor = (some ⟨registeredWords adds⟩, { f with
      tags := (f.tags.insert tagName Plugin.tagTemplate).erase tagName
      censor := none }) := by
  rw [loadWords_eq]
  rfl

/-- A censor that is loaded and detached takes its tag along, and leaves nothing if the tag was new. -/
theorem detachCensor_loadWords_iff : (f.loadWords tagName adds).detachCensor.2.tags = f.tags ↔
    f.tags.contains tagName = false := by
  rw [detachCensor_loadWords]
  exact Table.erase_insert_eq_iff

theorem detachCensor_loadWords_of_new (hc : f.censor = none) (ht : f.tags.contains tagName = false) :
    (f.loadWords tagName adds).detachCensor.2 = f := by
  rw [detachCensor_loadWords]
  simp only [Table.erase_insert ht, ← hc]

/-- Of two censors that are loaded, only the tag of the second one goes with it. -/
theorem detachCensor_twice_iff {first second : String} :
    (∀ name, ((f.loadCensor first).loadCensor second).detachCensor.2.tags.contains name = true →
      f.tags.contains name = true) ↔ first = second ∨ f.tags.contains first = true := by
  have hcontains : ∀ name, ((f.loadCensor first).loadCensor second).detachCensor.2.tags.contains name =
      (name != second && (name == second || (name == first || f.tags.contains name))) := by
    intro name
    simp only [loadCensor, detachCensor, Table.contains_erase, Table.contains_insert]
  simp only [hcontains]
  constructor
  · intro h
    by_cases hs : first = second
    · exact .inl hs
    · exact .inr (h first (by simp [hs]))
  · intro h name hn
    have hne : name ≠ second := by
      rintro rfl
      simp at hn
    rcases h with h | h
    · have hfirst : name ≠ first := fun he => hne (he.trans h)
      simpa [hne, hfirst] using hn
    · by_cases hfirst : name = first
      · rwa [hfirst]
      · simpa [hne, hfirst] using hn

end Censor

def Produces (f : Formatter) (tag : String) : Prop :=
  ∃ key u, f.bbcodes.get? key = some u ∧ u.tagName = tag

structure Owned (f : Formatter) : Prop where
  /-- A tag is that of a BBCode or of the censor. -/
  contains_iff : ∀ tag, f.tags.contains tag = true ↔
    f.Produces tag ∨ ∃ c, f.censor = some c ∧ c.tagName = tag
  /-- No two BBCodes have the same one. -/
  distinct : ∀ k l u v, f.bbcodes.get? k = some u → f.bbcodes.get? l = some v →
    u.tagName = v.tagName → k = l
  /-- No BBCode has that of the censor. -/
  separate : ∀ c, f.censor = some c → ¬ f.Produces c.tagName

section Invariant

variable {u : Usage} {t : Template} {key tag : String}

theorem produces_register (hname : f.bbcodes.contains u.name = false) :
    (f.register u t).Produces tag ↔ tag = u.tagName ∨ f.Produces tag := by
  constructor
  · rintro ⟨key, v, hv, rfl⟩
    rcases Table.get?_insert_eq_some_iff.1 hv with ⟨-, rfl⟩ | ⟨-, hold⟩
    · exact .inl rfl
    · exact .inr ⟨key, v, hold, rfl⟩
  · rintro (rfl | ⟨key, v, hv, rfl⟩)
    · exact ⟨u.name, u, Table.get?_insert_eq_some_iff.2 (.inl ⟨rfl, rfl⟩), rfl⟩
    · have hkey : key ≠ u.name := by
        rintro rfl
        rw [Table.get?_eq_none_iff.2 hname] at hv
        cases hv
      exact ⟨key, v, Table.get?_insert_eq_some_iff.2 (.inr ⟨hkey, hv⟩), rfl⟩

theorem Owned.produces_erase (h : Owned f) (hu : f.bbcodes.get? key = some u) {tags : Table String} :
    Produces { f with bbcodes := f.bbcodes.erase key, tags } tag ↔ tag ≠ u.tagName ∧ f.Produces tag := by
  constructor
  · rintro ⟨k, v, hv, rfl⟩
    obtain ⟨hk, hold⟩ := Table.get?_erase_eq_some_iff.1 hv
    exact ⟨fun he => hk (h.distinct k key v u hold hu he), k, v, hold, rfl⟩
  · rintro ⟨hne, k, v, hv, rfl⟩
    have hk : k ≠ key := by
      rintro rfl
      rw [hu] at hv
      exact hne (congrArg Usage.tagName (Option.some.inj hv)).symm
    exact ⟨k, v, Table.get?_erase_eq_some_iff.2 ⟨hk, hv⟩, rfl⟩

theorem owned_new : Owned .new := by
  constructor
  case contains_iff =>
    intro tag
    constructor
    · nofun
    · rintro (⟨_, _, hu, _⟩ | ⟨_, hc, _⟩)
      · cases hu
      · cases hc
  case distinct => nofun
  case separate => nofun

/-- A BBCode with a new tag is the only one that has it. -/
theorem Owned.register (h : Owned f) (hname : f.bbcodes.contains u.name = false)
    (htag : f.tags.contains u.tagName = false) : Owned (f.register u t) := by
  have hfree : ¬ f.tags.contains u.tagName = true := by simp [htag]
  rw [h.contains_iff, not_or] at hfree
  obtain ⟨hproduces, hcensor⟩ := hfree
  constructor
  case contains_iff =>
    intro tag
    rw [produces_register hname, Formatter.register, Table.contains_insert, Bool.or_eq_true, beq_iff_eq,
      h.contains_iff, or_assoc]
  case distinct =>
    intro k l v w hv hw he
    rcases Table.get?_insert_eq_some_iff.1 hv with ⟨hk, rfl⟩ | ⟨-, hv'⟩
    · rcases Table.get?_insert_eq_some_iff.1 hw with ⟨hl, rfl⟩ | ⟨-, hw'⟩
      · rw [hk, hl]
      · exact absurd ⟨l, w, hw', he.symm⟩ hproduces
    · rcases Table.get?_insert_eq_some_iff.1 hw with ⟨hl, rfl⟩ | ⟨-, hw'⟩
      · exact absurd ⟨k, v, hv', he⟩ hproduces
      · exact h.distinct k l v w hv' hw' he
  case separate =>
    intro c hc
    rw [produces_register hname, not_or]
    exact ⟨fun he => hcensor ⟨c, hc, he⟩, h.separate c hc⟩

/-- A BBCode that is removed takes its tag along, and no other one has it. -/
theorem Owned.remove (h : Owned f) (hu : f.bbcodes.get? key = some u) :
    Owned { f with bbcodes := f.bbcodes.erase key, tags := f.tags.erase u.tagName } := by
  have hproduced : f.Produces u.tagName := ⟨key, u, hu, rfl⟩
  constructor
  case contains_iff =>
    intro tag
    rw [h.produces_erase hu, Table.contains_erase, Bool.and_eq_true, bne_iff_ne, h.contains_iff]
    constructor
    · rintro ⟨hne, hp | hc⟩
      · exact .inl ⟨hne, hp⟩
      · exact .inr hc
    · rintro (⟨hne, hp⟩ | ⟨c, hc, rfl⟩)
      · exact ⟨hne, .inl hp⟩
      · have hne : c.tagName ≠ u.tagName := fun he => h.separate c hc (he ▸ hproduced)
        exact ⟨hne, .inr ⟨c, hc, rfl⟩⟩
  case distinct =>
    intro k l v w hv hw he
    exact h.distinct k l v w (Table.get?_erase_eq_some_iff.1 hv).2 (Table.get?_erase_eq_some_iff.1 hw).2 he
  case separate =>
    intro c hc
    rw [h.produces_erase hu, not_and]
    exact fun _ => h.separate c hc

theorem Owned.load (h : Owned f) (hc : f.censor = none) (ht : f.tags.contains tagName = false) :
    Owned (f.loadWords tagName adds) := by
  have hfree : ¬ f.tags.contains tagName = true := by simp [ht]
  rw [h.contains_iff, not_or] at hfree
  rw [loadWords_eq]
  constructor
  case contains_iff =>
    intro tag
    have hold := h.contains_iff tag
    simp only [hc, reduceCtorEq, false_and, exists_false, or_false] at hold
    rw [Table.contains_insert, Bool.or_eq_true, beq_iff_eq, hold, or_comm]
    apply or_congr Iff.rfl
    constructor
    · rintro rfl
      exact ⟨_, rfl, rfl⟩
    · rintro ⟨c, hc, rfl⟩
      cases hc
      rfl
  case distinct => exact h.distinct
  case separate =>
    intro c hc
    cases hc
    exact hfree.1

theorem Owned.detach (h : Owned f) : Owned f.detachCensor.2 := by
  unfold detachCensor
  split
  · exact h
  · next c hc =>
    constructor
    case contains_iff =>
      intro tag
      rw [Table.contains_erase, Bool.and_eq_true, bne_iff_ne, h.contains_iff]
      constructor
      · rintro ⟨hne, hp | ⟨d, hd, rfl⟩⟩
        · exact .inl hp
        · rw [hc] at hd
          cases hd
          exact absurd rfl hne
      · rintro (hp | ⟨d, hd, -⟩)
        · have hne : tag ≠ c.tagName := by
            rintro rfl
            exact h.separate c hc hp
          exact ⟨hne, .inl hp⟩
        · cases hd
    case distinct => exact h.distinct
    case separate => nofun

/-- Calls that do not load a censor over anything leave every tag to its owner. -/
theorem Owned.call (h : Owned f) (c : Call) (hfree : f.isFree c = true) : Owned (f.call c) := by
  cases c with
  | define usage t =>
    rw [Formatter.call]
    split
    · next hd =>
      obtain ⟨-, hname, htag, -, rfl⟩ := define_eq_ok_iff.1 hd
      exact h.register hname htag
    · exact h
  | remove name =>
    rw [Formatter.call]
    split
    · next hr =>
      obtain ⟨u, hu, he⟩ := Option.map_eq_some_iff.1 hr
      cases he
      exact h.remove hu
    · exact h
  | load tagName adds =>
    obtain ⟨hcensor, htag⟩ := Bool.and_eq_true_iff.1 hfree
    exact h.load (Option.isNone_iff_eq_none.1 hcensor) (by simpa using htag)
  | detach => exact h.detach

theorem Owned.callAll {calls : List Call} (h : Owned f) (ho : f.isOrderly calls = true) :
    Owned (f.callAll calls) := by
  induction calls generalizing f with
  | nil => exact h
  | cons c calls ih =>
    obtain ⟨hfree, hrest⟩ := Bool.and_eq_true_iff.1 ho
    exact ih (h.call c hfree) hrest

end Invariant

/--
However a formatter without a censor was reached, loading a censor, adding words and detaching it returns the
words, and restores the tags just when the censor's tag was new. Two censors one after the other leave no new
tag just when they have the same one, or the first one was not new. While no censor is loaded over anything,
the tags are those of the BBCodes.
-/
theorem detachCensor_restores_iff {f : Formatter} (calls : List Call) (hf : new.callAll calls = f)
    (hc : f.censor = none) (tagName first second : String) (adds : List (String × Option String)) :
    (f.loadWords tagName adds).detachCensor.1 = some ⟨registeredWords adds⟩ ∧
    ((f.loadWords tagName adds).detachCensor.2.tags = f.tags ↔ f.tags.contains tagName = false) ∧
    (f.tags.contains tagName = false → (f.loadWords tagName adds).detachCensor.2 = f) ∧
    ((∀ name, ((f.loadCensor first).loadCensor second).detachCensor.2.tags.contains name = true →
      f.tags.contains name = true) ↔ first = second ∨ f.tags.contains first = true) ∧
    (new.isOrderly calls = true → ∀ tag, f.tags.contains tag = true ↔ f.Produces tag) := by
  refine ⟨?_, detachCensor_loadWords_iff, detachCensor_loadWords_of_new hc, detachCensor_twice_iff, ?_⟩
  · rw [detachCensor_loadWords]
  · intro ho tag
    have howned : Owned f := hf ▸ owned_new.callAll ho
    rw [howned.contains_iff, hc]
    simp

def exampleCalls : List Call := [
  .define "[b]{TEXT}[/b]" ⟨"<b><xsl:apply-templates/></b>", true⟩, .load "x" [("word", none)], .detach,
  .define "[i]{TEXT}[/i]" ⟨"<i><xsl:apply-templates/></i>", true⟩, .remove "b"]

theorem detachCensor_restores_example :
    ((new.callAll exampleCalls).loadWords "B" [("fool*", some "dear"), ("**", none)]).detachCensor =
      (some ⟨[⟨"fool*", some "dear"⟩]⟩, new.callAll exampleCalls) := by
  obtain ⟨hwords, -, hsame, -, -⟩ := detachCensor_restores_iff exampleCalls rfl (by decide)
    "B" "x" "y" [("fool*", some "dear"), ("**", none)]
  refine Prod.ext (hwords.trans ?_) (hsame (by decide))
  decide

/-- A BBCode loses its tag to a censor, and a tag outlives its censor. -/
theorem censor_takes_tags : ∃ f : Formatter,
    new.callAll [.define "[b]{TEXT}[/b]" ⟨"<b><xsl:apply-templates/></b>", true⟩] = f ∧ f.censor = none ∧
    f.tags.contains "B" = true ∧ (f.loadWords "B" []).detachCensor.2.tags.contains "B" = false ∧
    f.tags.contains "x" = false ∧
    ((f.loadCensor "x").loadCensor "y").detachCensor.2.tags.contains "x" = true := by
  refine ⟨_, rfl, ?_⟩
  decide

end BoardMarkup.Formatter
