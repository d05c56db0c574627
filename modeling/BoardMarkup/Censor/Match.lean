import BoardMarkup.Text.Classes
import BoardMarkup.Text.Folding

/-! Where in a text a censored word stands, and how many characters it takes there. -/
namespace BoardMarkup.Censor

open Text

/-- A part of a word: one character in its folded form, or any run of letters and numbers. -/
inductive Item where
  | literal (folded : Char)
  | run
  deriving DecidableEq

/-- The parts of a word. Asterisks side by side mean no more than one. -/
def items : List Char → List Item
  | [] => []
  | c :: cs =>
    if c = '*' then
      match items cs with
      | .run :: rest => .run :: rest
      | rest => .run :: rest
    else .literal (fold c) :: items cs

structure Sign where
  folded : Char
  inRun : Bool
  inWord : Bool
  deriving DecidableEq

/-- The sign of a character. Up to case the iota below belongs to the letters of a run. -/
def Sign.ofChar (c : Char) : Sign := ⟨fold c, isLetterOrNumber c || c == '\u0345', isWord c⟩

/-- A place between two characters. None stands before the first place, none behind the last. -/
structure Place where
  before : Option Sign
  next : Option Sign
  deriving DecidableEq

namespace Place

def isBoundary (p : Place) : Bool := p.before.any (·.inWord) != p.next.any (·.inWord)

def mayStart (p : Place) : Bool := p.before.isNone || p.isBoundary

def mayEnd (p : Place) : Bool := p.next.isNone || p.isBoundary

def ofSigns (signs : List Sign) : List Place :=
  List.zipWith Place.mk (none :: signs.map some) (signs.map some ++ [none])

end Place

def oneMore (n : Option Nat) : Option Nat := n.map (· + 1)

/--
How many characters the items from each one on take at a place, where they match; `later` says
the same for the next place. Runs are as long as possible.
-/
def lengths (p : Place) : List Item → List (Option Nat) → List (Option Nat)
  | [], _ => [if p.mayEnd then some 0 else none]
  | .literal l :: rest, later =>
    let behind := later.tail
    (if p.next.any (·.folded == l) then oneMore (behind.headD none) else none) ::
      lengths p rest behind
  | .run :: rest, later =>
    let shorter := lengths p rest later.tail
    let longer := if p.next.any (·.inRun) then oneMore (later.headD none) else none
    longer.or (shorter.headD none) :: shorter

/-- How many characters a word takes at each place, where it matches as a whole word. -/
def wordLengths (is : List Item) (places : List Place) : List (Option Nat) :=
  (places.foldr
    (fun p (later, found) =>
      let here := lengths p is later
      (here, (if p.mayStart then here.headD none else none) :: found))
    (([], []) : List (Option Nat) × List (Option Nat))).2

end BoardMarkup.Censor
