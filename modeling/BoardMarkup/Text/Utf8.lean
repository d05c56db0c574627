/-! Bytes read as UTF-8, with a place for bytes that belong to no character. -/
namespace BoardMarkup.Text

abbrev Symbol := Option Char

def symbolsFrom (bytes : ByteArray) (i : Nat) : List Symbol :=
  if i < bytes.size then
    match bytes.utf8DecodeChar? i with
    | some c => some c :: symbolsFrom bytes (i + c.utf8Size)
    | none => none :: symbolsFrom bytes (i + 1)
  else []
termination_by bytes.size - i
decreasing_by
  · have := c.utf8Size_pos; omega
  · omega

def symbols (bytes : ByteArray) : List Symbol := symbolsFrom bytes 0

end BoardMarkup.Text
