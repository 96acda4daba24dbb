import ProviderRegistry.Text.Printable.Table

/-!
# Quoted text

A text as a string literal that evaluates to it. The single quote is the
quote mark unless the text holds single quotes and no double ones; the mark
and the backslash are escaped, and so is every character that is not
printable, by name or by its number in two, four or eight hexadecimal digits.
-/

namespace ProviderRegistry.Text

/-- The last `width` hexadecimal digits of a number. -/
def hexDigits : (width n : Nat) → List Char
  | 0, _ => []
  | width + 1, n => hexDigits width (n / 16) ++ [Nat.digitChar (n % 16)]

/-- The escape that names a character by its number. -/
def numericEscape (n : Nat) : List Char :=
  if n < 256 then ['\\', 'x'] ++ hexDigits 2 n
  else if n < 65536 then ['\\', 'u'] ++ hexDigits 4 n
  else ['\\', 'U'] ++ hexDigits 8 n

/-- Whether a character stands for itself in a quoted text. -/
def isPrintable (c : Char) : Bool :=
  if c.toNat < 127 then 32 ≤ c.toNat else printable.contains c

/-- A character as it is written between quote marks. -/
def escapeChar (mark c : Char) : List Char :=
  if c = mark || c = '\\' then ['\\', c]
  else if c = '\t' then ['\\', 't']
  else if c = '\n' then ['\\', 'n']
  else if c = '\r' then ['\\', 'r']
  else if isPrintable c then [c]
  else numericEscape c.toNat

/-- The quote mark of a text's literal. -/
def quoteMark (text : List Char) : Char :=
  if text.contains '\'' && !text.contains '"' then '"' else '\''

/-- A text as a string literal. -/
def quoteChars (text : List Char) : List Char :=
  let mark := quoteMark text
  mark :: text.flatMap (escapeChar mark) ++ [mark]

/-- A text as a string literal. -/
def quote (text : String) : String := String.ofList (quoteChars text.toList)

/-- A byte as it is written between quote marks. -/
def escapeByte (mark : Char) (b : UInt8) : List Char :=
  let c := Char.ofNat b.toNat
  if b < 127 then escapeChar mark c else numericEscape b.toNat

/-- A sequence of bytes as a literal. -/
def quoteBytes (bytes : List UInt8) : String :=
  let mark := quoteMark (bytes.map fun b => Char.ofNat b.toNat)
  String.ofList ('b' :: mark :: bytes.flatMap (escapeByte mark) ++ [mark])

end ProviderRegistry.Text
