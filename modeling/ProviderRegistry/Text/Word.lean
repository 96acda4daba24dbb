import ProviderRegistry.Text.Lines
import ProviderRegistry.Text.Word.Table

/-!
# Words

A word is a run of letters, numbers and underscores that does not start with a
decimal digit; a dotted name is made of words. Unlike an identifier, a word
has no combining marks.
-/

namespace ProviderRegistry.Text

/-- Whether `c` may stand in a word. -/
def isWordChar (c : Char) : Bool :=
  if c.toNat < 128 then c.isAlphanum || c == '_' else lettersAndNumbers.contains c

/-- Whether `c` is a decimal digit, which no word starts with. -/
def isDecimalDigit (c : Char) : Bool :=
  if c.toNat < 128 then c.isDigit else decimalDigits.contains c

/-- Whether a text is a word. -/
def isWord : List Char → Bool
  | [] => false
  | c :: rest => !isDecimalDigit c && (c :: rest).all isWordChar

/-- Whether a text is a sequence of words with dots between them. -/
def isDottedWords (text : List Char) : Bool := (pieces (· == '.') text).all isWord

end ProviderRegistry.Text
