import BoardMarkup.Json.Reader
import BoardMarkup.Text.Pieces
import BoardMarkup.Toml.Value

/-! Reading TOML documents. -/
namespace BoardMarkup.Toml

open Json (hexDigit? natOf)

def isBareKey (c : Char) : Bool := c.isAlphanum || c == '_' || c == '-'

def isControl (c : Char) : Bool := c.toNat < 0x20 && c != '\t' || c == '\x7f'

def skipBlanks (cs : List Char) : List Char := cs.dropWhile fun c => c == ' ' || c == '\t'

def afterBreak? : List Char → Option (List Char)
  | '\n' :: cs => some cs
  | '\r' :: '\n' :: cs => some cs
  | _ => none

def skipComment : List Char → List Char
  | '#' :: cs => cs.dropWhile (!isControl ·)
  | cs => cs

/-- Blanks and a comment, then the end of the line or of the text. -/
def endLine? (cs : List Char) : Option (List Char) :=
  match skipComment (skipBlanks cs) with
  | [] => some []
  | cs => afterBreak? cs

def skipLines : Nat → List Char → List Char
  | 0, cs => cs
  | fuel + 1, cs =>
    let cs := skipComment (skipBlanks cs)
    match afterBreak? cs with
    | some cs => skipLines fuel cs
    | none => cs

def codePoint? (count : Nat) (cs : List Char) : Option (Char × List Char) := do
  let digits := cs.take count
  if digits.length < count then none
  else
    let values ← digits.mapM fun c => hexDigit? (some c)
    let n := values.foldl (fun n d => 16 * n + d) 0
    if n.isValidChar then pure (Char.ofNat n, cs.drop count) else none

def escaped? : List Char → Option (Char × List Char)
  | 'b' :: cs => some ('\x08', cs)
  | 't' :: cs => some ('\t', cs)
  | 'n' :: cs => some ('\n', cs)
  | 'f' :: cs => some ('\x0c', cs)
  | 'r' :: cs => some ('\r', cs)
  | 'e' :: cs => some ('\x1b', cs)
  | '"' :: cs => some ('"', cs)
  | '\\' :: cs => some ('\\', cs)
  | 'x' :: cs => codePoint? 2 cs
  | 'u' :: cs => codePoint? 4 cs
  | 'U' :: cs => codePoint? 8 cs
  | _ => none

def line? : Nat → List Char → Option (List Char × List Char)
  | 0, _ => none
  | _ + 1, '"' :: cs => some ([], cs)
  | fuel + 1, '\\' :: cs => do
    let (c, cs) ← escaped? cs
    let (s, cs) ← line? fuel cs
    pure (c :: s, cs)
  | fuel + 1, c :: cs => if isControl c then none else (line? fuel cs).map fun (s, cs) => (c :: s, cs)
  | _ + 1, [] => none

def literalLine? (cs : List Char) : Option (List Char × List Char) :=
  let s := cs.takeWhile fun c => c != '\'' && !isControl c
  match cs.drop s.length with
  | '\'' :: cs => some (s, cs)
  | _ => none

/-- The quotes at the end of a string over lines: three close it, and one or two before them belong to it. -/
def closing? (quote : Char) (cs : List Char) : Option (List Char × List Char) :=
  let quotes := (cs.takeWhile (· == quote)).length
  if quotes < 3 then none
  else
    let extra := min (quotes - 3) 2
    some (List.replicate extra quote, cs.drop (3 + extra))

def skipSpace (cs : List Char) : List Char :=
  cs.dropWhile fun c => c == ' ' || c == '\t' || c == '\n' || c == '\r'

/--
A string over lines, up to its closing quotes. A backslash at the end of a line joins it to the next
text.
-/
def lines? : Nat → List Char → Option (List Char × List Char)
  | 0, _ => none
  | fuel + 1, cs =>
    match closing? '"' cs with
    | some found => some found
    | none =>
      match cs with
      | [] => none
      | '\\' :: rest =>
        if (afterBreak? (skipBlanks rest)).isSome then lines? fuel (skipSpace rest)
        else do
          let (c, rest) ← escaped? rest
          let (s, rest) ← lines? fuel rest
          pure (c :: s, rest)
      | c :: rest =>
        match afterBreak? cs with
        | some rest => (lines? fuel rest).map fun (s, rest) => ('\n' :: s, rest)
        | none =>
          if isControl c then none else (lines? fuel rest).map fun (s, rest) => (c :: s, rest)

def literalLines? : Nat → List Char → Option (List Char × List Char)
  | 0, _ => none
  | fuel + 1, cs =>
    match closing? '\'' cs with
    | some found => some found
    | none =>
      match afterBreak? cs, cs with
      | some rest, _ => (literalLines? fuel rest).map fun (s, rest) => ('\n' :: s, rest)
      | none, c :: rest =>
        if isControl c then none else (literalLines? fuel rest).map fun (s, rest) => (c :: s, rest)
      | none, [] => none

/-- A string of any kind. A line break right behind three quotes is not part of it. -/
def string? (cs : List Char) : Option (String × List Char) :=
  let found := match cs with
    | '"' :: '"' :: '"' :: cs => lines? (cs.length + 1) ((afterBreak? cs).getD cs)
    | '\'' :: '\'' :: '\'' :: cs => literalLines? (cs.length + 1) ((afterBreak? cs).getD cs)
    | '"' :: cs => line? (cs.length + 1) cs
    | '\'' :: cs => literalLine? cs
    | _ => none
  found.map fun (s, cs) => (String.ofList s, cs)

/-- A key without dots: bare, or quoted on one line. -/
def simpleKey? (cs : List Char) : Option (String × List Char) :=
  match cs with
  | '"' :: rest => (line? (rest.length + 1) rest).map fun (s, rest) => (String.ofList s, rest)
  | '\'' :: rest => (literalLine? rest).map fun (s, rest) => (String.ofList s, rest)
  | _ =>
    match cs.takeWhile isBareKey with
    | [] => none
    | s => some (String.ofList s, cs.drop s.length)

/-- How deep brackets may nest, and how many parts a key may have. -/
def maxDepth : Nat := 80

def keyParts? : Nat → List Char → Option ((String × List String) × List Char)
  | 0, _ => none
  | parts + 1, cs => do
    let (k, cs) ← simpleKey? (skipBlanks cs)
    match skipBlanks cs with
    | '.' :: cs =>
      let ((next, path), cs) ← keyParts? parts cs
      pure ((k, next :: path), cs)
    | cs => pure ((k, []), cs)

def key? (cs : List Char) : Option ((String × List String) × List Char) := keyParts? maxDepth cs

def groupedDigits? (isDigit : Char → Bool) (cs : List Char) : Option (List Char) :=
  let groups := Text.split '_' cs
  if groups.all fun g => g ≠ [] ∧ g.all isDigit then some groups.flatten else none

/-- Digits without a superfluous zero in front. -/
def decimal? (cs : List Char) : Option (List Char) :=
  match groupedDigits? Char.isDigit cs with
  | some ('0' :: _ :: _) => none
  | found => found

def exponent? : List Char → Option Int
  | [] => some 0
  | _ :: '+' :: ds => (groupedDigits? Char.isDigit ds).map fun ds => natOf ds
  | _ :: '-' :: ds => (groupedDigits? Char.isDigit ds).map fun ds => -natOf ds
  | _ :: ds => (groupedDigits? Char.isDigit ds).map fun ds => natOf ds

def floatTail? (cs : List Char) : Option (List Char × Int) := do
  let part := cs.takeWhile fun c => c != 'e' && c != 'E'
  let fraction ← match part with
    | [] => some []
    | '.' :: ds => groupedDigits? Char.isDigit ds
    | _ => none
  pure (fraction, ← exponent? (cs.drop part.length))

/-- The least whole number that rounds to infinity. -/
def infinite : Nat := 1 <<< 1024 - 1 <<< 970

/-- Whether digits with a power of ten stay below the numbers that round to infinity. -/
def isFinite (digits : List Char) (power : Int) : Bool :=
  let n := natOf digits
  let magnitude := digits.length + power
  if n = 0 ∨ magnitude < 300 then true
  else if 0 ≤ power then power < 400 && n * Nat.pow 10 power.toNat < infinite
  else n < infinite * Nat.pow 10 (-power).toNat

def unsigned? (cs : List Char) : Option Toml :=
  if cs = "inf".toList ∨ cs = "nan".toList then some (.float true)
  else
    let whole := cs.takeWhile fun c => c.isDigit || c == '_'
    let tail := cs.drop whole.length
    match decimal? whole with
    | none => none
    | some ds =>
      if tail = [] then some (.int (natOf ds))
      else (floatTail? tail).map fun (fraction, power) =>
        .float (isFinite (ds ++ fraction) (power - fraction.length))

def based? (base : Nat) (cs : List Char) : Option Toml := do
  let ds ← groupedDigits? (fun c => (hexDigit? (some c)).any (· < base)) cs
  pure (.int (ds.foldl (fun n c => base * n + (hexDigit? (some c)).getD 0) 0 : Nat))

/-- A value written without quotes or brackets. -/
def scalar? (cs : List Char) : Option Toml :=
  match cs with
  | '0' :: 'x' :: ds => based? 16 ds
  | '0' :: 'o' :: ds => based? 8 ds
  | '0' :: 'b' :: ds => based? 2 ds
  | '+' :: rest => unsigned? rest
  | '-' :: rest =>
    match unsigned? rest with
    | some (.int n) => some (.int (-n))
    | other => other
  | _ =>
    if cs = "true".toList then some (.bool true)
    else if cs = "false".toList then some (.bool false)
    else unsigned? cs

def isScalar (c : Char) : Bool := isBareKey c || c == '+' || c == '.' || c == ':'

mutual

/-- A value with at most `depth` brackets around its parts. The fuel bounds the items before it. -/
def value? : Nat → Nat → List Char → Option (Toml × List Char)
  | 0, _, _ => none
  | fuel + 1, depth, cs =>
    match cs, depth with
    | '"' :: _, _ => (string? cs).map fun (s, cs) => (.text s, cs)
    | '\'' :: _, _ => (string? cs).map fun (s, cs) => (.text s, cs)
    | '[' :: cs, depth + 1 => (items? fuel depth cs).map fun (vs, cs) => (.list vs, cs)
    | '\x7b' :: cs, depth + 1 => (inline? fuel depth [] cs).map fun (fs, cs) => (.table .inline fs, cs)
    | cs, _ =>
      let s := cs.takeWhile isScalar
      (scalar? s).map fun v => (v, cs.drop s.length)

def items? : Nat → Nat → List Char → Option (List Toml × List Char)
  | 0, _, _ => none
  | fuel + 1, depth, cs =>
    match skipLines cs.length cs with
    | ']' :: cs => some ([], cs)
    | cs => do
      let (v, cs) ← value? fuel depth cs
      match skipLines cs.length cs with
      | ',' :: cs => (items? fuel depth cs).map fun (vs, cs) => (v :: vs, cs)
      | ']' :: cs => some ([v], cs)
      | _ => none

def inline? : Nat → Nat → Fields → List Char → Option (Fields × List Char)
  | 0, _, _, _ => none
  | fuel + 1, depth, fields, cs =>
    match skipLines cs.length cs with
    | '}' :: cs => some (fields, cs)
    | cs => do
      let ((k, path), cs) ← key? cs
      match skipLines cs.length cs with
      | '=' :: cs =>
        let (v, cs) ← value? fuel depth (skipLines cs.length cs)
        let fields ← put v k path fields
        match skipLines cs.length cs with
        | ',' :: cs => inline? fuel depth fields cs
        | '}' :: cs => some (fields, cs)
        | _ => none
      | _ => none

end

/-- The document so far, and the header under which the next keys stand. -/
structure Progress where
  fields : Fields := []
  header : List String := []

def header? (p : Progress) (cs : List Char) : Option (Progress × List Char) :=
  match cs with
  | '[' :: '[' :: cs => do
    let ((k, path), cs) ← key? cs
    match cs with
    | ']' :: ']' :: cs =>
      let whole := k :: path
      pure (⟨← inside (append (whole.getLast (by simp [whole]))) whole.dropLast p.fields, whole⟩, cs)
    | _ => none
  | '[' :: cs => do
    let ((k, path), cs) ← key? cs
    match cs with
    | ']' :: cs =>
      let whole := k :: path
      pure (⟨← inside (define (whole.getLast (by simp [whole]))) whole.dropLast p.fields, whole⟩, cs)
    | _ => none
  | _ => none

def pair? (p : Progress) (cs : List Char) : Option (Progress × List Char) := do
  let ((k, path), cs) ← key? cs
  match cs with
  | '=' :: cs =>
    let (v, cs) ← value? (2 * cs.length + 1) maxDepth (skipBlanks cs)
    pure ({ p with fields := ← inside (put v k path) p.header p.fields }, cs)
  | _ => none

def document? : Nat → Progress → List Char → Option Fields
  | 0, _, _ => none
  | fuel + 1, p, cs =>
    match skipLines cs.length cs with
    | [] => some p.fields
    | '[' :: cs => do
      let (p, cs) ← header? p ('[' :: cs)
      document? fuel p (← endLine? cs)
    | cs => do
      let (p, cs) ← pair? p cs
      document? fuel p (← endLine? cs)

/-- Reads a document. A byte order mark may stand in front of it. -/
def read? (s : String) : Option Fields :=
  let cs := match s.toList with
    | '\ufeff' :: cs => cs
    | cs => cs
  document? (cs.length + 1) {} cs

end BoardMarkup.Toml
