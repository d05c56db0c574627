import BoardMarkup.Text.Unseen

/-! Texts quoted for messages, with every character that would not be seen written out. -/
namespace BoardMarkup.Text

/-- One character between quotes. What has no form of its own is written by its code point. -/
def quoteChar (c : Char) : List Char :=
  if c = '"' ∨ c = '\\' then ['\\', c]
  else if c = '\n' then ['\\', 'n']
  else if c = '\r' then ['\\', 'r']
  else if c = '\t' then ['\\', 't']
  else if c = '\x00' then ['\\', '0']
  else if unseen.contains c then
    ['\\', 'u', '{'] ++ Nat.toDigits 16 c.toNat ++ ['}']
  else [c]

def quote (s : String) : String :=
  String.ofList ('"' :: s.toList.flatMap quoteChar ++ ['"'])

end BoardMarkup.Text
