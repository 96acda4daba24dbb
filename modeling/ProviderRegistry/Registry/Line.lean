import ProviderRegistry.Path
import ProviderRegistry.Text.Blank
import ProviderRegistry.Text.Identifier
import ProviderRegistry.Text.Lines

/-!
# Lines of registry files

A line names a provider, up to a number sign, which starts a comment. Blanks
around the name do not count, and a line without a name is skipped. A name is
a sequence of identifiers with dots or colons between them.
-/

namespace ProviderRegistry.Registry

/-- A line that names nothing that could be a provider: its file, its number and
the name as it was written. -/
structure IllegalName where
  source : Path
  lineNumber : Int
  name : String
  deriving DecidableEq, Repr

/-- The message for an illegal name. -/
def IllegalName.message (e : IllegalName) : String :=
  e.source.text ++ ":" ++ toString e.lineNumber ++ ": Illegal provider-class name: " ++ e.name

/-- What stands before the comment, without the blanks around it. -/
def lineName (line : List Char) : List Char := Text.trim (line.takeWhile (· != '#'))

/-- Whether a name is a sequence of identifiers with dots or colons between
them. -/
def isProviderName (name : List Char) : Bool :=
  (Text.pieces (fun c => c == '.' || c == ':') name).all Text.isIdentifier

/-- The provider that a line names, if it names one. -/
def parseLine (source : Path) (lineNumber : Int) (line : List Char) :
    Except IllegalName (Option String) :=
  let name := lineName line
  if name.isEmpty then .ok none
  else if isProviderName name then .ok (some (String.ofList name))
  else .error ⟨source, lineNumber, String.ofList name⟩

end ProviderRegistry.Registry
