import ProviderRegistry.Literal
import ProviderRegistry.Text.Identifier

/-!
# Tokens

What the text of a module is cut into. Line ends and changes of indentation
are tokens, except inside brackets; blanks and comments are not.
-/

namespace ProviderRegistry.Syntax

/-- A name: a text that is an identifier. -/
structure Identifier where
  text : String
  isIdentifier : Text.isIdentifier text.toList = true
  deriving DecidableEq, Repr

/-- A string literal. A formatted one is kept as the texts of the expressions in
it, since its value depends on them. -/
inductive StringPiece where
  | text (s : List Char)
  | bytes (b : List UInt8)
  | formatted (expressions : List (List Char))
  deriving Repr

/-- What a token is. -/
inductive Token.Kind where
  | name (id : Identifier)
  | keyword (word : String)
  | number (value : Literal)
  | string (piece : StringPiece)
  | op (symbol : String)
  | newline
  | indent
  | dedent
  deriving Repr

/-- A token and the line that it starts on. -/
structure Token where
  kind : Token.Kind
  line : Nat
  deriving Repr

/-- The words that are never names. -/
def keywords : List String :=
  ["False", "None", "True", "and", "as", "assert", "async", "await", "break", "class", "continue",
    "def", "del", "elif", "else", "except", "finally", "for", "from", "global", "if", "import",
    "in", "is", "lambda", "nonlocal", "not", "or", "pass", "raise", "return", "try", "while",
    "with", "yield"]

/-- The token that a word is. -/
def Token.Kind.ofWord (word : Identifier) : Token.Kind :=
  if keywords.contains word.text then .keyword word.text else .name word

/-- The operators and brackets, longest first. -/
def symbols : List (List Char) :=
  ["**=", "//=", ">>=", "<<=", "...", "!=", "->", "**", "//", "<<", ">>", "<=", ">=", "==",
    "+=", "-=", "*=", "/=", "%=", "&=", "|=", "^=", "@=", ":=", "(", ")", "[", "]",
    "\x7b", "\x7d", ":", ",", ";", "+", "-", "*", "/", "|", "&", "<", ">", "=", ".", "%", "~",
    "^", "@"].map String.toList

end ProviderRegistry.Syntax
