import BoardMarkup.Json.Value
import BoardMarkup.Text.Utf8

/-! Reading JSON. -/
namespace BoardMarkup.Json

open Text

abbrev Input := List Symbol

def isSpace (s : Symbol) : Bool := s == ' ' || s == '\t' || s == '\n' || s == '\r'

def skipSpace (cs : Input) : Input := cs.dropWhile isSpace

def word? : List Char → Input → Option Input
  | [], cs => some cs
  | w :: ws, some c :: cs => if w = c then word? ws cs else none
  | _ :: _, _ => none

def digits : Input → List Char × Input
  | some c :: cs => if c.isDigit then ((digits cs).1.cons c, (digits cs).2) else ([], some c :: cs)
  | cs => ([], cs)

def digits? (cs : Input) : Option (List Char × Input) :=
  match digits cs with
  | ([], _) => none
  | found => some found

def fraction? : Input → Option (List Char × Input)
  | some '.' :: cs => (digits? cs).map fun (ds, cs) => ('.' :: ds, cs)
  | cs => some ([], cs)

def exponent? : Input → Option (List Char × Input)
  | some 'e' :: some '+' :: cs => (digits? cs).map fun (ds, cs) => ('e' :: '+' :: ds, cs)
  | some 'e' :: some '-' :: cs => (digits? cs).map fun (ds, cs) => ('e' :: '-' :: ds, cs)
  | some 'e' :: cs => (digits? cs).map fun (ds, cs) => ('e' :: ds, cs)
  | some 'E' :: some '+' :: cs => (digits? cs).map fun (ds, cs) => ('E' :: '+' :: ds, cs)
  | some 'E' :: some '-' :: cs => (digits? cs).map fun (ds, cs) => ('E' :: '-' :: ds, cs)
  | some 'E' :: cs => (digits? cs).map fun (ds, cs) => ('E' :: ds, cs)
  | cs => some ([], cs)

def natOf (ds : List Char) : Nat := ds.foldl (fun n d => 10 * n + (d.toNat - 48)) 0

/-- A number without a sign. Further digits behind a leading zero are not part of it. -/
def unsigned? (cs : Input) : Option ((List Char × List Char) × Input) := do
  let (whole, cs) ← match cs with
    | some '0' :: cs => some (['0'], cs)
    | cs => digits? cs
  let (part, cs) ← fraction? cs
  let (exponent, cs) ← exponent? cs
  pure ((whole, part ++ exponent), cs)

/-- A number. Negative zero is none of the integers. -/
def number? : Input → Option (Json × Input)
  | some '-' :: cs => (unsigned? cs).map fun ((whole, tail), cs) =>
    if tail = [] ∧ natOf whole ≠ 0 then (.int (-(natOf whole : Int)), cs)
    else (.real (String.ofList ('-' :: whole ++ tail)), cs)
  | cs => (unsigned? cs).map fun ((whole, tail), cs) =>
    if tail = [] then (.int (natOf whole), cs) else (.real (String.ofList (whole ++ tail)), cs)

def hexDigit? : Symbol → Option Nat
  | none => none
  | some c =>
    if '0' ≤ c ∧ c ≤ '9' then some (c.toNat - 48)
    else if 'a' ≤ c ∧ c ≤ 'f' then some (c.toNat - 87)
    else if 'A' ≤ c ∧ c ≤ 'F' then some (c.toNat - 55)
    else none

/-- A part of a string literal: a character, a UTF-16 unit, or a byte of no character. -/
inductive Part where
  | char (c : Char)
  | unit (n : Nat)
  | stray

def unescape? : Char → Option Char
  | '"' => some '"'
  | '\\' => some '\\'
  | '/' => some '/'
  | 'b' => some '\x08'
  | 'f' => some '\x0c'
  | 'n' => some '\n'
  | 'r' => some '\r'
  | 't' => some '\t'
  | _ => none

def parts? : Input → Option (List Part × Input)
  | some '"' :: cs => some ([], cs)
  | some '\\' :: some 'u' :: p :: q :: r :: s :: cs => do
    let n := (← hexDigit? p) * 4096 + (← hexDigit? q) * 256 + (← hexDigit? r) * 16 + (← hexDigit? s)
    let (ps, cs) ← parts? cs
    pure (.unit n :: ps, cs)
  | some '\\' :: some c :: cs => do
    let c ← unescape? c
    let (ps, cs) ← parts? cs
    pure (.char c :: ps, cs)
  | some c :: cs =>
    if c = '\\' ∨ c.toNat < 0x20 then none
    else (parts? cs).map fun (ps, cs) => (.char c :: ps, cs)
  | none :: cs => (parts? cs).map fun (ps, cs) => (.stray :: ps, cs)
  | [] => none

/-- The text the parts denote. Surrogates count in pairs only. -/
def textOf? : List Part → Option (List Char)
  | [] => some []
  | .char c :: ps => (textOf? ps).map (c :: ·)
  | .stray :: _ => none
  | .unit n :: .unit m :: ps =>
    if 0xD800 ≤ n ∧ n < 0xDC00 ∧ 0xDC00 ≤ m ∧ m < 0xE000 then
      (textOf? ps).map (Char.ofNat ((n - 0xD800) * 0x400 + (m - 0xDC00) + 0x10000) :: ·)
    else if 0xD800 ≤ n ∧ n < 0xE000 then none
    else (textOf? (.unit m :: ps)).map (Char.ofNat n :: ·)
  | .unit n :: ps =>
    if 0xD800 ≤ n ∧ n < 0xE000 then none else (textOf? ps).map (Char.ofNat n :: ·)

def string? (cs : Input) : Option (Option String × Input) :=
  (parts? cs).map fun (ps, cs) => ((textOf? ps).map String.ofList, cs)

def key? (cs : Input) : Option (Option String × Input) :=
  match skipSpace cs with
  | some '"' :: cs => do
    let (k, cs) ← string? cs
    match skipSpace cs with
    | some ':' :: cs => some (k, cs)
    | _ => none
  | _ => none

mutual

/-- A value. The fuel bounds the values met on the way to any other. -/
def value? : Nat → Input → Option (Json × Input)
  | 0, _ => none
  | fuel + 1, cs =>
    match skipSpace cs with
    | some 'n' :: cs => (word? "ull".toList cs).map (.null, ·)
    | some 't' :: cs => (word? "rue".toList cs).map (.bool true, ·)
    | some 'f' :: cs => (word? "alse".toList cs).map (.bool false, ·)
    | some '"' :: cs => (string? cs).map fun (s, cs) => (.str s, cs)
    | some '[' :: cs =>
      match skipSpace cs with
      | some ']' :: cs => some (.list [], cs)
      | cs => (items? fuel cs).map fun (vs, cs) => (.list vs, cs)
    | some '{' :: cs =>
      match skipSpace cs with
      | some '}' :: cs => some (.object [], cs)
      | cs => (fields? fuel cs).map fun (fs, cs) => (.object fs, cs)
    | cs => number? cs

def items? : Nat → Input → Option (List Json × Input)
  | 0, _ => none
  | fuel + 1, cs => do
    let (v, cs) ← value? fuel cs
    match skipSpace cs with
    | some ',' :: cs => (items? fuel cs).map fun (vs, cs) => (v :: vs, cs)
    | some ']' :: cs => some ([v], cs)
    | _ => none

def fields? : Nat → Input → Option (List (Option String × Json) × Input)
  | 0, _ => none
  | fuel + 1, cs => do
    let (k, cs) ← key? cs
    let (v, cs) ← value? fuel cs
    match skipSpace cs with
    | some ',' :: cs => (fields? fuel cs).map fun (fs, cs) => ((k, v) :: fs, cs)
    | some '}' :: cs => some ([(k, v)], cs)
    | _ => none

end

/-- One value, with nothing but blanks around it. -/
def read? (cs : Input) : Option Json :=
  match value? (2 * cs.length + 1) cs with
  | some (v, rest) => if (skipSpace rest).isEmpty then some v else none
  | none => none

def ofBytes? (bytes : ByteArray) : Option Json := read? (symbols bytes)

def ofString? (s : String) : Option Json := read? (s.toList.map some)

end BoardMarkup.Json
