/-! Texts cut into pieces: what a finder finds from left to right, and single characters between. -/
namespace BoardMarkup.Text

/-- What follows `mark` at the start of a text. -/
def after? : List Char → List Char → Option (List Char)
  | [], cs => some cs
  | _ :: _, [] => none
  | m :: mark, c :: cs => if m = c then after? mark cs else none

/-- Splits at the first occurrence of `mark`: the text before it, and the text after it. -/
def cut? (mark : List Char) : List Char → Option (List Char × List Char)
  | [] => if mark.isEmpty then some ([], []) else none
  | c :: rest =>
    match after? mark (c :: rest) with
    | some tail => some ([], tail)
    | none => (cut? mark rest).map fun (before, tail) => (c :: before, tail)

def split (separator : Char) : List Char → List (List Char)
  | [] => [[]]
  | c :: cs =>
    if c = separator then [] :: split separator cs
    else
      match split separator cs with
      | [] => [[c]]
      | part :: parts => (c :: part) :: parts

/-- A character as it stands, or what was found in place of some. -/
inductive Piece (α : Type) where
  | plain (c : Char)
  | found (a : α)

/--
What begins at a position, and how many characters it takes. The first argument holds the
characters before the position, nearest first; the second those from the position on.
-/
abbrev Finder (α : Type) := List Char → List Char → Option (α × Nat)

/-- The pieces after `before`, of which the next `skip` characters belong to the last find. -/
def piecesFrom {α : Type} (f : Finder α) : List Char → Nat → List Char → List (Piece α)
  | _, _, [] => []
  | before, skip + 1, c :: rest => piecesFrom f (c :: before) skip rest
  | before, 0, c :: rest =>
    match f before (c :: rest) with
    | some (a, n) => .found a :: piecesFrom f (c :: before) (n - 1) rest
    | none => .plain c :: piecesFrom f (c :: before) 0 rest

/-- At each position outside an earlier find, what the finder finds there or else the character. -/
def pieces {α : Type} (f : Finder α) (cs : List Char) : List (Piece α) := piecesFrom f [] 0 cs

def findAll {α : Type} (f : Finder α) (cs : List Char) : List α :=
  (pieces f cs).filterMap fun
    | .plain _ => none
    | .found a => some a

def replaceAll {α : Type} (f : Finder α) (g : α → List Char) (cs : List Char) : List Char :=
  (pieces f cs).flatMap fun
    | .plain c => [c]
    | .found a => g a

end BoardMarkup.Text
