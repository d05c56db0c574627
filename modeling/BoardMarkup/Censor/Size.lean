import BoardMarkup.Text.Folding

/-!
How large the pattern of a censored word gets when it is compiled. The library that compiles it refuses
patterns beyond a limit. Its inner workings are not part of the program: which words are searched for is
decided by a test that is passed in, every theorem holds of every such test, and the estimate below is only
the one with which the program is run. It is that of the pattern read backwards, which the library compiles
as well and which is the larger one.
-/
namespace BoardMarkup.Censor

open Text

/-- The characters that a pattern takes for one another, which differ in case only. -/
def variants (c : Char) : List Char :=
  let folded := (fold c).toNat
  fold c :: foldRules.filterMap fun r =>
    let n := folded - r.target + r.first
    if r.target ≤ folded && r.applies n then some (Char.ofNat n) else none

/-- The bytes of a character, and those that remain when the last ones are left out. -/
def beginnings (c : Char) : List (List UInt8) :=
  let bytes := c.toString.toUTF8.toList
  (List.range bytes.length).map fun n => bytes.take (n + 1)

/--
About how many bytes a character takes in a compiled pattern: 32 for each state, 8 for a transition between
states, 4 for an alternative. Variants with more than one byte share the states of equal beginnings.
-/
def characterSize (c : Char) : Nat :=
  match variants c with
  | [_] => 32 * c.utf8Size
  | cs =>
    if cs.all (·.utf8Size == 1) then 64 + 8 * cs.length
    else 64 + 4 * cs.length + 32 * (cs.flatMap beginnings).eraseDups.length

def runSize : Nat := 47709

def endsSize : Nat := 376

def estimatedSize (word : String) : Nat :=
  word.toList.foldl (fun n c => n + if c = '*' then runSize else characterSize c) endsSize

/-- Whether the pattern of a word stays, by the estimate, within the ten mebibytes of the library. -/
def fitsLibrary (word : String) : Bool := estimatedSize word ≤ 10 * 1024 * 1024

end BoardMarkup.Censor
