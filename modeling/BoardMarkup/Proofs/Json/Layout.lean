import BoardMarkup.Proofs.Json.Scalar

/-! Values are read as they were written, on one line or over several. -/
namespace BoardMarkup.Json

open Text

mutual

/-- Whether a value has no numbers but integers, and texts wherever strings stand. -/
def isPlain : Json → Bool
  | .null | .bool _ | .int _ | .str (some _) => true
  | .real _ | .str none => false
  | .list vs => arePlain vs
  | .object fs => havePlain fs

def arePlain : List Json → Bool
  | [] => true
  | v :: vs => isPlain v && arePlain vs

def havePlain : List (Option String × Json) → Bool
  | [] => true
  | (k, v) :: fs => k.isSome && isPlain v && havePlain fs

end

/-- The blanks in a written form: before what stands at a depth, and behind colons. -/
structure Layout where
  line : Nat → List Char
  colon : List Char

namespace Layout

def flat : Layout := ⟨fun _ => [], []⟩

def lines : Layout := ⟨newline, [' ']⟩

structure Blank (l : Layout) : Prop where
  line : ∀ depth, ∀ c ∈ l.line depth, isSpace (some c) = true
  colon : ∀ c ∈ l.colon, isSpace (some c) = true

theorem blank_flat : flat.Blank := ⟨by simp [flat], by simp [flat]⟩

theorem blank_lines : lines.Blank := by
  refine ⟨fun depth c h => ?_, fun c h => ?_⟩
  · rcases List.mem_cons.1 h with rfl | h
    · rfl
    · rw [List.eq_of_mem_replicate h]
      rfl
  · rw [List.mem_singleton.1 h]
    rfl

mutual

def write (l : Layout) (depth : Nat) : Json → List Char
  | .null => "null".toList
  | .bool true => "true".toList
  | .bool false => "false".toList
  | .int n => writeInt n
  | .real s => s.toList
  | .str s => literal s
  | .list [] => "[]".toList
  | .list (v :: vs) => '[' :: l.line (depth + 1) ++ write l (depth + 1) v ++ writeItems l depth vs
  | .object [] => "\x7b\x7d".toList
  | .object ((k, v) :: fs) =>
    '{' :: l.line (depth + 1) ++ literal k ++ ':' :: (l.colon ++ write l (depth + 1) v) ++
      writeFields l depth fs

def writeItems (l : Layout) (depth : Nat) : List Json → List Char
  | [] => l.line depth ++ [']']
  | v :: vs => ',' :: l.line (depth + 1) ++ write l (depth + 1) v ++ writeItems l depth vs

def writeFields (l : Layout) (depth : Nat) : List (Option String × Json) → List Char
  | [] => l.line depth ++ ['}']
  | (k, v) :: fs =>
    ',' :: l.line (depth + 1) ++ literal k ++ ':' :: (l.colon ++ write l (depth + 1) v) ++
      writeFields l depth fs

end

mutual

theorem write_flat (depth : Nat) : (v : Json) → flat.write depth v = v.compact
  | .null | .bool true | .bool false | .int _ | .real _ | .str _ | .list [] | .object [] => rfl
  | .list (v :: vs) => by
    change '[' :: flat.write (depth + 1) v ++ flat.writeItems depth vs =
      '[' :: v.compact ++ compactItems vs
    rw [write_flat (depth + 1) v, writeItems_flat depth vs]
  | .object ((k, v) :: fs) => by
    change '{' :: literal k ++ ':' :: flat.write (depth + 1) v ++ flat.writeFields depth fs =
      '{' :: literal k ++ ':' :: v.compact ++ compactFields fs
    rw [write_flat (depth + 1) v, writeFields_flat depth fs]

theorem writeItems_flat (depth : Nat) : (vs : List Json) →
    flat.writeItems depth vs = compactItems vs
  | [] => rfl
  | v :: vs => by
    change ',' :: flat.write (depth + 1) v ++ flat.writeItems depth vs =
      ',' :: v.compact ++ compactItems vs
    rw [write_flat (depth + 1) v, writeItems_flat depth vs]

theorem writeFields_flat (depth : Nat) : (fs : List (Option String × Json)) →
    flat.writeFields depth fs = compactFields fs
  | [] => rfl
  | (k, v) :: fs => by
    change ',' :: literal k ++ ':' :: flat.write (depth + 1) v ++ flat.writeFields depth fs =
      ',' :: literal k ++ ':' :: v.compact ++ compactFields fs
    rw [write_flat (depth + 1) v, writeFields_flat depth fs]

end

mutual

theorem write_lines (depth : Nat) : (v : Json) → lines.write depth v = v.prettyAt depth
  | .null | .bool true | .bool false | .int _ | .real _ | .str _ | .list [] | .object [] => rfl
  | .list (v :: vs) => by
    change '[' :: newline (depth + 1) ++ lines.write (depth + 1) v ++ lines.writeItems depth vs =
      '[' :: newline (depth + 1) ++ v.prettyAt (depth + 1) ++ prettyItems depth vs
    rw [write_lines (depth + 1) v, writeItems_lines depth vs]
  | .object ((k, v) :: fs) => by
    change '{' :: newline (depth + 1) ++ literal k ++ ':' :: ' ' :: lines.write (depth + 1) v ++
        lines.writeFields depth fs =
      '{' :: newline (depth + 1) ++ literal k ++ ':' :: ' ' :: v.prettyAt (depth + 1) ++
        prettyFields depth fs
    rw [write_lines (depth + 1) v, writeFields_lines depth fs]

theorem writeItems_lines (depth : Nat) : (vs : List Json) →
    lines.writeItems depth vs = prettyItems depth vs
  | [] => rfl
  | v :: vs => by
    change ',' :: newline (depth + 1) ++ lines.write (depth + 1) v ++ lines.writeItems depth vs =
      ',' :: newline (depth + 1) ++ v.prettyAt (depth + 1) ++ prettyItems depth vs
    rw [write_lines (depth + 1) v, writeItems_lines depth vs]

theorem writeFields_lines (depth : Nat) : (fs : List (Option String × Json)) →
    lines.writeFields depth fs = prettyFields depth fs
  | [] => rfl
  | (k, v) :: fs => by
    change ',' :: newline (depth + 1) ++ literal k ++ ':' :: ' ' :: lines.write (depth + 1) v ++
        lines.writeFields depth fs =
      ',' :: newline (depth + 1) ++ literal k ++ ':' :: ' ' :: v.prettyAt (depth + 1) ++
        prettyFields depth fs
    rw [write_lines (depth + 1) v, writeFields_lines depth fs]

end

end Layout

section Reading

variable {l : Layout} {rest : Input}

theorem skipSpace_append {sp : List Char} (hsp : ∀ c ∈ sp, isSpace (some c) = true) (cs : Input) :
    skipSpace (sp.map some ++ cs) = skipSpace cs := by
  induction sp with
  | nil => rfl
  | cons c sp ih =>
    rw [skipSpace, List.map_cons, List.cons_append, List.dropWhile_cons_of_pos (hsp c (by simp))]
    exact ih fun d hd => hsp d (List.mem_cons_of_mem _ hd)

theorem skipSpace_cons {c : Char} (h : isSpace (some c) = false) (cs : Input) :
    skipSpace (some c :: cs) = some c :: cs :=
  List.dropWhile_cons_of_neg (by simp [h])

def afterItem (fuel : Nat) (v : Json) (cs : Input) : Option (List Json × Input) :=
  match skipSpace cs with
  | some ',' :: cs => (items? fuel cs).map fun (vs, cs) => (v :: vs, cs)
  | some ']' :: cs => some ([v], cs)
  | _ => none

theorem items?_succ (fuel : Nat) (cs : Input) : items? (fuel + 1) cs =
    (value? fuel cs).bind fun (v, cs) => afterItem fuel v cs := by
  rw [items?]
  rfl

def afterField (fuel : Nat) (k : Option String) (v : Json) (cs : Input) :
    Option (List (Option String × Json) × Input) :=
  match skipSpace cs with
  | some ',' :: cs => (fields? fuel cs).map fun (fs, cs) => ((k, v) :: fs, cs)
  | some '}' :: cs => some ([(k, v)], cs)
  | _ => none

theorem fields?_succ (fuel : Nat) (cs : Input) : fields? (fuel + 1) cs =
    (key? cs).bind fun (k, cs) => (value? fuel cs).bind fun (v, cs) => afterField fuel k v cs := by
  rw [fields?]
  rfl

def valueAt (fuel : Nat) : Input → Option (Json × Input)
  | some 'n' :: cs => (word? "ull".toList cs).map (.null, ·)
  | some 't' :: cs => (word? "rue".toList cs).map (.bool true, ·)
  | some 'f' :: cs => (word? "alse".toList cs).map (.bool false, ·)
  | some '"' :: cs => (string? cs).map fun (s, cs) => (.str s, cs)
  | some '[' :: cs =>
    match skipSpace cs with
    | some ']' :: cs => some (.list [], cs)
    | cs => (items? fuel cs).map fun (vs, cs) => (.list vs, cs)
  | some '{' :: cs =>
    match skipSpace cs with
    | some '}' :: cs => some (.object [], cs)
    | cs => (fields? fuel cs).map fun (fs, cs) => (.object fs, cs)
  | cs => number? cs

theorem value?_succ (fuel : Nat) (cs : Input) : value? (fuel + 1) cs = valueAt fuel (skipSpace cs) := by
  rw [value?]
  rfl

theorem literal_some (s : String) : literal (some s) = '"' :: s.toList.flatMap escape ++ ['"'] := rfl

theorem literal_cons (s : String) (cs : Input) : (literal (some s)).map some ++ cs =
    some '"' :: ((s.toList.flatMap escape).map some ++ some '"' :: cs) := by
  rw [literal_some]
  simp

theorem skipSpace_literal {sp : List Char} (hsp : ∀ c ∈ sp, isSpace (some c) = true) (s : String)
    (cs : Input) : skipSpace (sp.map some ++ ((literal (some s)).map some ++ cs)) =
      some '"' :: ((s.toList.flatMap escape).map some ++ some '"' :: cs) := by
  rw [skipSpace_append hsp, literal_cons, skipSpace_cons (by decide)]

theorem key?_literal {sp : List Char} (hsp : ∀ c ∈ sp, isSpace (some c) = true) (k : String) (cs : Input) :
    key? (sp.map some ++ ((literal (some k)).map some ++ some ':' :: cs)) = some (some k, cs) := by
  rw [key?, skipSpace_literal hsp]
  simp only [string?_flatMap, bind, Option.bind]
  rw [skipSpace_cons (by decide)]
  rfl

theorem isSpace_of_isDigit {c : Char} (h : c.isDigit = true) :
    isSpace (some c) = false ∧ c ≠ ']' ∧ c ≠ '}' := by
  have hne : ∀ d : Char, d.isDigit = false → c ≠ d := fun d hd he => by
    rw [he, hd] at h
    cases h
  simp [isSpace, hne ' ' (by decide), hne '\t' (by decide), hne '\n' (by decide), hne '\r' (by decide),
    hne ']' (by decide), hne '}' (by decide)]

theorem write_eq_cons {v : Json} (hv : v.isPlain) (l : Layout) (depth : Nat) : ∃ c cs,
    l.write depth v = c :: cs ∧ isSpace (some c) = false ∧ c ≠ ']' ∧ c ≠ '}' := by
  match v with
  | .null => exact ⟨_, _, String.toList_ofList (l := ['n', 'u', 'l', 'l']), by decide⟩
  | .bool true => exact ⟨_, _, String.toList_ofList (l := ['t', 'r', 'u', 'e']), by decide⟩
  | .bool false => exact ⟨_, _, String.toList_ofList (l := ['f', 'a', 'l', 's', 'e']), by decide⟩
  | .int (.ofNat n) =>
    obtain ⟨d, ds, hd⟩ := List.exists_cons_of_ne_nil (Nat.toDigits_ne_nil (n := n) (b := 10))
    exact ⟨d, ds, hd, isSpace_of_isDigit (isDigit_of_toDigits (n := n) (by rw [hd]; simp))⟩
  | .int (.negSucc n) => exact ⟨_, _, rfl, by decide⟩
  | .str (some s) => exact ⟨_, _, literal_some s, by decide⟩
  | .list [] => exact ⟨_, _, String.toList_ofList (l := ['[', ']']), by decide⟩
  | .list (v :: vs) => exact ⟨_, _, rfl, by decide⟩
  | .object [] => exact ⟨_, _, String.toList_ofList (l := ['{', '}']), by decide⟩
  | .object ((k, v) :: fs) => exact ⟨_, _, rfl, by decide⟩

theorem value?_skip {sp : List Char} (hsp : ∀ c ∈ sp, isSpace (some c) = true) (fuel : Nat)
    (cs : Input) : value? fuel (sp.map some ++ cs) = value? fuel cs := by
  cases fuel with
  | zero => rfl
  | succ fuel => rw [value?_succ, value?_succ, skipSpace_append hsp]

theorem value?_number {c : Char} {cs : Input} (hc : c.isDigit ∨ c = '-') (fuel : Nat) :
    value? (fuel + 1) (some c :: cs) = number? (some c :: cs) := by
  have hne : ∀ d : Char, d.isDigit = false → d ≠ '-' → c ≠ d := by
    rintro d hd hm rfl
    rcases hc with hc | hc
    · rw [hd] at hc
      cases hc
    · exact hm hc
  have hspace : isSpace (some c) = false := by
    rcases hc with hc | rfl
    · exact (isSpace_of_isDigit hc).1
    · decide
  rw [value?_succ, skipSpace_cons hspace]
  unfold valueAt
  split
  all_goals first
    | rfl
    | next hcs => exact absurd (Option.some.inj (List.cons.inj hcs).1) (hne _ (by decide) (by decide))

theorem value?_list {c : Char} {cs tail : Input} (h : skipSpace cs = some c :: tail) (hc : c ≠ ']')
    (fuel : Nat) : value? (fuel + 1) (some '[' :: cs) =
      (items? fuel (some c :: tail)).map fun (vs, cs) => (.list vs, cs) := by
  rw [value?_succ, skipSpace_cons (by decide), valueAt]
  simp only [h]
  split
  · next hcs => exact absurd (Option.some.inj (List.cons.inj hcs).1) hc
  · rfl

theorem value?_object {c : Char} {cs tail : Input} (h : skipSpace cs = some c :: tail) (hc : c ≠ '}')
    (fuel : Nat) : value? (fuel + 1) (some '{' :: cs) =
      (fields? fuel (some c :: tail)).map fun (fs, cs) => (.object fs, cs) := by
  rw [value?_succ, skipSpace_cons (by decide), valueAt]
  simp only [h]
  split
  · next hcs => exact absurd (Option.some.inj (List.cons.inj hcs).1) hc
  · rfl

private theorem endsNumber_of_isSpace {c : Char} (h : isSpace (some c) = true) (cs : Input) :
    endsNumber (some c :: cs) = true := by
  simp only [isSpace, Bool.or_eq_true, beq_iff_eq, Option.some.injEq] at h
  rcases h with ((rfl | rfl) | rfl) | rfl <;> rfl

theorem endsNumber_append {sp : List Char} (hsp : ∀ c ∈ sp, isSpace (some c) = true) {c : Char}
    (hc : endsNumber [some c] = true) (cs : Input) :
    endsNumber (sp.map some ++ some c :: cs) = true := by
  cases sp with
  | nil => exact hc
  | cons d sp => exact endsNumber_of_isSpace (hsp d (by simp)) _

theorem endsNumber_writeItems (hl : l.Blank) (depth : Nat) (vs : List Json) (rest : Input) :
    endsNumber ((l.writeItems depth vs).map some ++ rest) = true := by
  cases vs with
  | nil =>
    rw [Layout.writeItems, List.map_append, List.append_assoc]
    exact endsNumber_append (hl.line depth) rfl rest
  | cons v vs => rfl

theorem endsNumber_writeFields (hl : l.Blank) (depth : Nat) (fs : List (Option String × Json))
    (rest : Input) : endsNumber ((l.writeFields depth fs).map some ++ rest) = true := by
  cases fs with
  | nil =>
    rw [Layout.writeFields, List.map_append, List.append_assoc]
    exact endsNumber_append (hl.line depth) rfl rest
  | cons f fs => rfl

theorem value?_null (fuel : Nat) (rest : Input) :
    value? (fuel + 1) ("null".toList.map some ++ rest) = some (.null, rest) := by
  have hword : "null".toList = ['n', 'u', 'l', 'l'] := String.toList_ofList
  have htail : "ull".toList = ['u', 'l', 'l'] := String.toList_ofList
  rw [hword, List.map_cons, List.cons_append, value?_succ, skipSpace_cons (by decide), valueAt]
  simp only [htail]
  rfl

theorem value?_true (fuel : Nat) (rest : Input) :
    value? (fuel + 1) ("true".toList.map some ++ rest) = some (.bool true, rest) := by
  have hword : "true".toList = ['t', 'r', 'u', 'e'] := String.toList_ofList
  have htail : "rue".toList = ['r', 'u', 'e'] := String.toList_ofList
  rw [hword, List.map_cons, List.cons_append, value?_succ, skipSpace_cons (by decide), valueAt]
  simp only [htail]
  rfl

theorem value?_false (fuel : Nat) (rest : Input) :
    value? (fuel + 1) ("false".toList.map some ++ rest) = some (.bool false, rest) := by
  have hword : "false".toList = ['f', 'a', 'l', 's', 'e'] := String.toList_ofList
  have htail : "alse".toList = ['a', 'l', 's', 'e'] := String.toList_ofList
  rw [hword, List.map_cons, List.cons_append, value?_succ, skipSpace_cons (by decide), valueAt]
  simp only [htail]
  rfl

theorem value?_emptyList (fuel : Nat) (rest : Input) :
    value? (fuel + 1) ("[]".toList.map some ++ rest) = some (.list [], rest) := by
  have hword : "[]".toList = ['[', ']'] := String.toList_ofList
  rw [hword, List.map_cons, List.cons_append, value?_succ, skipSpace_cons (by decide)]
  rfl

theorem value?_emptyObject (fuel : Nat) (rest : Input) :
    value? (fuel + 1) ("\x7b\x7d".toList.map some ++ rest) = some (.object [], rest) := by
  have hword : "\x7b\x7d".toList = ['{', '}'] := String.toList_ofList
  rw [hword, List.map_cons, List.cons_append, value?_succ, skipSpace_cons (by decide)]
  rfl

theorem value?_literal (fuel : Nat) (s : String) (rest : Input) :
    value? (fuel + 1) ((literal (some s)).map some ++ rest) = some (.str (some s), rest) := by
  rw [literal_cons, value?_succ, skipSpace_cons (by decide), valueAt]
  simp only [string?_flatMap, Option.map_some]

private theorem value?_writeInt (fuel : Nat) (n : Int) {rest : Input} (hr : endsNumber rest = true) :
    value? (fuel + 1) ((writeInt n).map some ++ rest) = some (.int n, rest) := by
  obtain ⟨c, cs, hc, hfirst⟩ : ∃ c cs, writeInt n = c :: cs ∧ (c.isDigit ∨ c = '-') := by
    cases n with
    | ofNat n =>
      obtain ⟨d, ds, hd⟩ := List.exists_cons_of_ne_nil (Nat.toDigits_ne_nil (n := n) (b := 10))
      exact ⟨d, ds, hd, .inl (isDigit_of_toDigits (n := n) (by rw [hd]; simp))⟩
    | negSucc n => exact ⟨_, _, rfl, .inr rfl⟩
  have h := number?_writeInt n hr
  rw [hc, List.map_cons, List.cons_append] at h ⊢
  rw [value?_number hfirst, h]

theorem exists_fuel {v : Json} (hv : v.isPlain) {depth fuel : Nat}
    (hf : 2 * (l.write depth v).length ≤ fuel) : ∃ n, fuel = n + 1 := by
  obtain ⟨c, cs, hc, -⟩ := write_eq_cons hv l depth
  rw [hc, List.length_cons] at hf
  exact ⟨fuel - 1, by omega⟩

mutual

/-- A value is read as it was written, where no number goes on behind it. -/
theorem value?_write (hl : l.Blank) (depth : Nat) : (v : Json) → v.isPlain = true →
    ∀ (fuel : Nat) (rest : Input), 2 * (l.write depth v).length ≤ fuel → endsNumber rest = true →
      value? fuel ((l.write depth v).map some ++ rest) = some (v, rest)
  | .null, hv, fuel, rest, hf, _ => by
    obtain ⟨fuel, rfl⟩ := exists_fuel hv hf
    exact value?_null fuel rest
  | .bool true, hv, fuel, rest, hf, _ => by
    obtain ⟨fuel, rfl⟩ := exists_fuel hv hf
    exact value?_true fuel rest
  | .bool false, hv, fuel, rest, hf, _ => by
    obtain ⟨fuel, rfl⟩ := exists_fuel hv hf
    exact value?_false fuel rest
  | .int n, hv, fuel, rest, hf, hr => by
    obtain ⟨fuel, rfl⟩ := exists_fuel hv hf
    exact value?_writeInt fuel n hr
  | .str (some s), hv, fuel, rest, hf, _ => by
    obtain ⟨fuel, rfl⟩ := exists_fuel hv hf
    exact value?_literal fuel s rest
  | .list [], hv, fuel, rest, hf, _ => by
    obtain ⟨fuel, rfl⟩ := exists_fuel hv hf
    exact value?_emptyList fuel rest
  | .list (v :: vs), hv, fuel, rest, hf, _ => by
    simp only [isPlain, arePlain, Bool.and_eq_true] at hv
    -- the first item must not look like the end of an empty list
    obtain ⟨c, cs, hc, hspace, hclose, -⟩ := write_eq_cons hv.1 l (depth + 1)
    have hv' := value?_write hl (depth + 1) v hv.1
    have htail := afterItem_write hl depth vs hv.2
    rw [Layout.write] at hf ⊢
    simp only [List.length_append, List.length_cons] at hf
    obtain ⟨fuel, rfl⟩ : ∃ n, fuel = n + 2 := ⟨fuel - 2, by omega⟩
    simp only [List.map_append, List.map_cons, List.cons_append, List.append_assoc]
    have hskip : skipSpace ((l.line (depth + 1)).map some ++
        ((l.write (depth + 1) v).map some ++ ((l.writeItems depth vs).map some ++ rest))) =
          some c :: (cs.map some ++ ((l.writeItems depth vs).map some ++ rest)) := by
      rw [skipSpace_append (hl.line _), hc, List.map_cons, List.cons_append, skipSpace_cons hspace]
    rw [value?_list hskip hclose, ← List.cons_append, ← List.map_cons, ← hc, items?_succ,
      hv' fuel _ (by omega) (endsNumber_writeItems hl depth vs rest)]
    simp only [Option.bind_some, htail fuel rest v (by omega), Option.map_some]
  | .object [], hv, fuel, rest, hf, _ => by
    obtain ⟨fuel, rfl⟩ := exists_fuel hv hf
    exact value?_emptyObject fuel rest
  | .object ((some k, v) :: fs), hv, fuel, rest, hf, _ => by
    simp only [isPlain, havePlain, Bool.and_eq_true] at hv
    have hv' := value?_write hl (depth + 1) v hv.1.2
    have htail := afterField_write hl depth fs hv.2
    rw [Layout.write] at hf ⊢
    simp only [List.length_append, List.length_cons] at hf
    obtain ⟨fuel, rfl⟩ : ∃ n, fuel = n + 2 := ⟨fuel - 2, by omega⟩
    simp only [List.map_append, List.map_cons, List.cons_append, List.append_assoc]
    have hkey : ∀ cs, key? ((literal (some k)).map some ++ some ':' :: cs) = some (some k, cs) :=
      fun cs => key?_literal (List.forall_mem_nil _) k cs
    rw [value?_object (skipSpace_literal (hl.line _) k _) (by decide), fields?_succ,
      ← literal_cons, hkey]
    simp only [Option.bind_some, value?_skip hl.colon,
      hv' fuel _ (by omega) (endsNumber_writeFields hl depth fs rest),
      htail fuel rest (some k) v (by omega), Option.map_some]

/-- Behind an item all others are read, up to the end of the list. -/
theorem afterItem_write (hl : l.Blank) (depth : Nat) : (vs : List Json) → arePlain vs = true →
    ∀ (fuel : Nat) (rest : Input) (v : Json), 2 * (l.writeItems depth vs).length ≤ fuel →
      afterItem fuel v ((l.writeItems depth vs).map some ++ rest) = some (v :: vs, rest)
  | [], _, fuel, rest, v, _ => by
    rw [Layout.writeItems, List.map_append, List.append_assoc, afterItem, skipSpace_append (hl.line _)]
    rfl
  | w :: vs, hw, fuel, rest, v, hf => by
    simp only [arePlain, Bool.and_eq_true] at hw
    have hw' := value?_write hl (depth + 1) w hw.1
    have htail := afterItem_write hl depth vs hw.2
    rw [Layout.writeItems] at hf ⊢
    simp only [List.length_append, List.length_cons] at hf
    obtain ⟨fuel, rfl⟩ : ∃ n, fuel = n + 1 := ⟨fuel - 1, by omega⟩
    simp only [List.map_append, List.map_cons, List.cons_append, List.append_assoc]
    rw [afterItem, skipSpace_cons (by decide)]
    simp only [items?_succ, value?_skip (hl.line _),
      hw' fuel _ (by omega) (endsNumber_writeItems hl depth vs rest), Option.bind_some,
      htail fuel rest w (by omega), Option.map_some]

theorem afterField_write (hl : l.Blank) (depth : Nat) : (fs : List (Option String × Json)) →
    havePlain fs = true → ∀ (fuel : Nat) (rest : Input) (k : Option String) (v : Json),
      2 * (l.writeFields depth fs).length ≤ fuel →
        afterField fuel k v ((l.writeFields depth fs).map some ++ rest) = some ((k, v) :: fs, rest)
  | [], _, fuel, rest, k, v, _ => by
    rw [Layout.writeFields, List.map_append, List.append_assoc, afterField, skipSpace_append (hl.line _)]
    rfl
  | (some j, w) :: fs, hw, fuel, rest, k, v, hf => by
    simp only [havePlain, Bool.and_eq_true] at hw
    have hw' := value?_write hl (depth + 1) w hw.1.2
    have htail := afterField_write hl depth fs hw.2
    rw [Layout.writeFields] at hf ⊢
    simp only [List.length_append, List.length_cons] at hf
    obtain ⟨fuel, rfl⟩ : ∃ n, fuel = n + 1 := ⟨fuel - 1, by omega⟩
    simp only [List.map_append, List.map_cons, List.cons_append, List.append_assoc]
    rw [afterField, skipSpace_cons (by decide)]
    simp only [fields?_succ, key?_literal (hl.line _), Option.bind_some, value?_skip hl.colon,
      hw' fuel _ (by omega) (endsNumber_writeFields hl depth fs rest),
      htail fuel rest (some j) w (by omega), Option.map_some]

end

theorem read?_write (hl : l.Blank) {v : Json} (hv : v.isPlain = true) :
    read? ((l.write 0 v).map some) = some v := by
  have h := value?_write hl 0 v hv (2 * ((l.write 0 v).map some).length + 1) []
    (by rw [List.length_map]; omega) rfl
  rw [List.append_nil] at h
  rw [read?, h]
  rfl

end Reading

theorem ofBytes?_write {v : Json} (hv : v.isPlain = true) : ofBytes? v.write.toUTF8 = some v := by
  rw [ofBytes?, symbols_toUTF8, Json.write, String.toList_ofList, ← Layout.write_flat 0 v]
  exact read?_write Layout.blank_flat hv

theorem ofBytes?_writePretty {v : Json} (hv : v.isPlain = true) :
    ofBytes? v.writePretty.toUTF8 = some v := by
  rw [ofBytes?, symbols_toUTF8, Json.writePretty, String.toList_ofList, ← Layout.write_lines 0 v]
  exact read?_write Layout.blank_lines hv

section Plain

@[simp]
theorem isPlain_text (s : String) : (text s).isPlain = true := rfl

@[simp]
theorem isPlain_bool (b : Bool) : (bool b).isPlain = true := rfl

@[simp]
theorem isPlain_int (n : Int) : (int n).isPlain = true := rfl

private theorem arePlain_eq_all (vs : List Json) : arePlain vs = vs.all isPlain := by
  induction vs with
  | nil => rfl
  | cons v vs ih => rw [arePlain, ih, List.all_cons]

@[simp]
theorem isPlain_record (fs : List (String × Json)) : (record fs).isPlain = fs.all (·.2.isPlain) := by
  rw [record, isPlain]
  induction fs with
  | nil => rfl
  | cons f fs ih => rw [List.map_cons, havePlain, ih, List.all_cons, Option.isSome_some, Bool.true_and]

variable {α : Type} {g : α → Json}

theorem isPlain_list_map (h : ∀ a, (g a).isPlain = true) (as : List α) :
    (list (as.map g)).isPlain = true := by
  rw [isPlain, arePlain_eq_all]
  simp [h]

theorem isPlain_ofOption (h : ∀ a, (g a).isPlain = true) (a : Option α) :
    (ofOption g a).isPlain = true := by
  cases a with
  | none => rfl
  | some a => exact h a

@[simp]
theorem isPlain_ofOption_text (t : Option String) : (ofOption text t).isPlain = true :=
  isPlain_ofOption isPlain_text t

end Plain

end BoardMarkup.Json
