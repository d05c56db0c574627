import BoardMarkup.Text.Alphanumeric
import BoardMarkup.Text.Letters
import BoardMarkup.Text.Words

/-! Classes of characters that patterns and names are written with. -/
namespace BoardMarkup.Text

def isDecimal (c : Char) : Bool := decimals.contains c

def isLetterOrNumber (c : Char) : Bool := letters.contains c || numbers.contains c

/-- Whether a character belongs to a word. Words end where such characters and others meet. -/
def isWord (c : Char) : Bool := wordCharacters.contains c

def isAlphanumeric (c : Char) : Bool := alphanumerics.contains c

def isMarkupBlank (c : Char) : Bool := c == ' ' || c == '\t' || c == '\r' || c == '\n'

end BoardMarkup.Text
