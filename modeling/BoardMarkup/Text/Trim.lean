import BoardMarkup.Text.CharSet

/-! Blank characters, and texts stripped at their ends. -/
namespace BoardMarkup.Text

/-- The characters with the Unicode property White_Space. -/
def blanks : CharSet := ⟨[
  0x9, 0xE, 0x20, 0x21, 0x85, 0x86, 0xA0, 0xA1, 0x1680, 0x1681, 0x2000, 0x200B,
  0x2028, 0x202A, 0x202F, 0x2030, 0x205F, 0x2060, 0x3000, 0x3001]⟩

def isBlank (c : Char) : Bool := blanks.contains c

/-- Without the longest final stretch of characters in `p`. -/
def dropEndWhile (p : Char → Bool) (cs : List Char) : List Char :=
  (cs.reverse.dropWhile p).reverse

def stripWhile (p : Char → Bool) (cs : List Char) : List Char :=
  dropEndWhile p (cs.dropWhile p)

def trim (s : String) : String := String.ofList (stripWhile isBlank s.toList)

end BoardMarkup.Text
