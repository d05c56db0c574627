import BoardMarkup.Text.Classes

/-! Regular patterns over characters, matched by their derivatives. -/
namespace BoardMarkup.Filter

open Text

inductive ClassItem where
  | range (first last : Char)
  | letter
  | number
  | decimal
  deriving DecidableEq

def ClassItem.contains (c : Char) : ClassItem → Bool
  | .range first last => first ≤ c && c ≤ last
  | .letter => letters.contains c
  | .number => numbers.contains c
  | .decimal => decimals.contains c

structure CharClass where
  items : List ClassItem
  negated : Bool := false
  deriving DecidableEq

def CharClass.contains (k : CharClass) (c : Char) : Bool := k.items.any (·.contains c) != k.negated

inductive Pattern where
  | empty
  | one (k : CharClass)
  | seq (p q : Pattern)
  | alt (p q : Pattern)
  | star (p : Pattern)
  deriving DecidableEq

namespace Pattern

/-- Whether the empty text matches. -/
def nullable : Pattern → Bool
  | .empty => true
  | .one _ => false
  | .seq p q => p.nullable && q.nullable
  | .alt p q => p.nullable || q.nullable
  | .star _ => true

def before (q : Pattern) : Pattern → Pattern
  | .empty => q
  | p => .seq p q

/-- The patterns for what may follow a character in the texts that match. -/
def derive (c : Char) : Pattern → List Pattern
  | .empty => []
  | .one k => if k.contains c then [.empty] else []
  | .seq p q => (derive c p).map (before q) ++ if p.nullable then derive c q else []
  | .alt p q => derive c p ++ derive c q
  | .star p => (derive c p).map (before (.star p))

def advance (ps : List Pattern) (c : Char) : List Pattern := (ps.flatMap (derive c)).eraseDups

def accepts (p : Pattern) (cs : List Char) : Bool := (cs.foldl advance [p]).any nullable

def any : Pattern := .one ⟨[], true⟩

def ofChar (c : Char) : Pattern := .one ⟨[.range c c], false⟩

def times (p : Pattern) : Nat → Pattern
  | 0 => .empty
  | n + 1 => .seq p (times p n)

def escaped? : List Char → Option (ClassItem × List Char)
  | 'd' :: cs => some (.decimal, cs)
  | 'p' :: '{' :: 'L' :: '}' :: cs => some (.letter, cs)
  | 'p' :: '{' :: 'N' :: '}' :: cs => some (.number, cs)
  | c :: cs => if c.isAlphanum then none else some (.range c c, cs)
  | [] => none

def classItem? : List Char → Option (ClassItem × List Char)
  | '\\' :: cs => escaped? cs
  | c :: '-' :: d :: cs => if d = ']' ∨ d < c then none else some (.range c d, cs)
  | c :: cs => some (.range c c, cs)
  | [] => none

def classItems? : Nat → List Char → Option (List ClassItem × List Char)
  | 0, _ => none
  | _ + 1, ']' :: cs => some ([], cs)
  | fuel + 1, cs => do
    let (item, cs) ← classItem? cs
    let (items, cs) ← classItems? fuel cs
    pure (item :: items, cs)

def repeated? : Nat → Pattern → List Char → Option (Pattern × List Char)
  | 0, _, _ => none
  | fuel + 1, p, cs =>
    match cs with
    | '*' :: cs => repeated? fuel (.star p) cs
    | '+' :: cs => repeated? fuel (.seq p (.star p)) cs
    | '?' :: cs => repeated? fuel (.alt p .empty) cs
    | '{' :: cs =>
      let digits := cs.takeWhile Char.isDigit
      match (String.ofList digits).toNat?, cs.drop digits.length with
      | some n, '}' :: cs => repeated? fuel (p.times n) cs
      | _, _ => none
    | cs => some (p, cs)

mutual

def alternatives? : Nat → List Char → Option (Pattern × List Char)
  | 0, _ => none
  | fuel + 1, cs => do
    let (p, cs) ← sequence? fuel cs
    match cs with
    | '|' :: cs => (alternatives? fuel cs).map fun (q, cs) => (.alt p q, cs)
    | cs => some (p, cs)

def sequence? : Nat → List Char → Option (Pattern × List Char)
  | 0, _ => none
  | fuel + 1, cs =>
    match cs with
    | [] => some (.empty, [])
    | '|' :: _ => some (.empty, cs)
    | ')' :: _ => some (.empty, cs)
    | cs => do
      let (p, cs) ← atom? fuel cs
      let (p, cs) ← repeated? fuel p cs
      let (q, cs) ← sequence? fuel cs
      pure (before q p, cs)

def atom? : Nat → List Char → Option (Pattern × List Char)
  | 0, _ => none
  | fuel + 1, cs =>
    match cs with
    | '(' :: '?' :: ':' :: cs => group? fuel cs
    | '(' :: cs => group? fuel cs
    | '[' :: '^' :: cs => (classItems? fuel cs).map fun (items, cs) => (.one ⟨items, true⟩, cs)
    | '[' :: cs => (classItems? fuel cs).map fun (items, cs) => (.one ⟨items, false⟩, cs)
    | '\\' :: cs => (escaped? cs).map fun (item, cs) => (.one ⟨[item], false⟩, cs)
    | '.' :: cs => some (.one ⟨[.range '\n' '\n'], true⟩, cs)
    | c :: cs => if c ∈ ['*', '+', '?', '{', '^', '$'] then none else some (ofChar c, cs)
    | [] => none

def group? : Nat → List Char → Option (Pattern × List Char)
  | 0, _ => none
  | fuel + 1, cs => do
    let (p, cs) ← alternatives? fuel cs
    match cs with
    | ')' :: cs => some (p, cs)
    | _ => none

end

/--
Reads a pattern. Anchors may stand at its two ends; where there is none, any text may stand
before or behind what matches.
-/
def parse? (source : String) : Option Pattern := do
  let cs := source.toList
  let fromStart := cs.head? = some '^'
  let cs := if fromStart then cs.drop 1 else cs
  let toEnd := cs.getLast? = some '$'
  let cs := if toEnd then cs.dropLast else cs
  let (p, rest) ← alternatives? (3 * cs.length + 4) cs
  if rest.isEmpty then
    let p := if toEnd then p else .seq p (.star any)
    pure (if fromStart then p else .seq (.star any) p)
  else none

end Pattern
end BoardMarkup.Filter
