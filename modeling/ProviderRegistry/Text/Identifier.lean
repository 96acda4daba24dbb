import ProviderRegistry.Text.Identifier.Table

/-!
# Identifiers

A name is an identifier when it is not empty, its first character may start
one and every further character may continue one.
-/

namespace ProviderRegistry.Text

/-- Whether `c` may start an identifier. -/
def isIdentifierStart (c : Char) : Bool :=
  if c.toNat < 128 then c.isAlpha || c == '_' else identifierStart.contains c

/-- Whether `c` may follow the first character of an identifier. -/
def isIdentifierContinue (c : Char) : Bool :=
  if c.toNat < 128 then c.isAlphanum || c == '_' else identifierContinue.contains c

/-- Whether a text is an identifier. -/
def isIdentifier : List Char → Bool
  | [] => false
  | c :: rest => isIdentifierStart c && rest.all isIdentifierContinue

end ProviderRegistry.Text
