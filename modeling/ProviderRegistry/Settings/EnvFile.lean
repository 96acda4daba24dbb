import ProviderRegistry.Table
import ProviderRegistry.Text.Blank

/-!
# Files of variables

A file of variables has a name, an equals sign and a value on a line. Values
may stand in quotes, and then go over several lines; a number sign starts a
comment; a line that cannot be read is skipped. A value may refer to variables
by name.
-/

namespace ProviderRegistry.EnvFile

/-! ## Parts of a line -/

/-- Whether a character is a blank inside a line. -/
def isInnerBlank (c : Char) : Bool := Text.isBlank c && c != '\n' && c != '\r'

/-- A text without the blanks at its start, up to the end of the line. -/
def skipInner (text : List Char) : List Char := text.dropWhile isInnerBlank

/-- Whether a character stands at the end of a line. -/
def isLineEnd (c : Char) : Bool := c == '\n' || c == '\r'

/-- What follows the line that a text starts with. -/
def nextLine (text : List Char) : List Char := (text.dropWhile (!isLineEnd ·)).drop 1

/-- A text without the word that may stand before a name. -/
def skipExport (text : List Char) : List Char :=
  let word := "export".toList
  let rest := text.drop word.length
  if word.isPrefixOf text && rest.head?.any isInnerBlank then skipInner rest else text

/-- What a part of a line gives: a value and the rest, or the place from which the
line is skipped. -/
abbrev Part (α : Type) := Except (List Char) (α × List Char)

/-- The name at the start of a line, if it has one; one in quotes may hold anything. -/
def takeName (text : List Char) : Part (Option String) :=
  match text with
  | '#' :: _ => .ok (none, text)
  | '\'' :: quoted =>
    let name := quoted.takeWhile (· != '\'')
    match quoted.drop name.length with
    | '\'' :: rest =>
      if name.isEmpty then .error text else .ok (some (String.ofList name), rest)
    | _ => .error text
  | _ =>
    let name := text.takeWhile fun c => c != '=' && c != '#' && !Text.isBlank c
    if name.isEmpty then .error text
    else .ok (some (String.ofList name), text.drop name.length)

/-- How long a quoted value is: up to the first closing quote that no backslash stands
before, or else up to the last one. The `length` counts what has been passed. -/
def quotedLength (mark : Char) : List Char → (length : Nat) → (last : Option Nat) → Option Nat
  | [], _, last => last
  | '\\' :: c :: rest, length, last =>
    if c == mark then quotedLength mark rest (length + 2) (some (length + 1))
    else quotedLength mark (c :: rest) (length + 1) last
  | c :: rest, length, last =>
    if c == mark then some length else quotedLength mark rest (length + 1) last

/-- A value with its escapes replaced, by pairs of the character after the backslash and
what it stands for. -/
def unescape (escapes : List (Char × Char)) : List Char → List Char
  | '\\' :: c :: rest => match escapes.lookup c with
    | some replaced => replaced :: unescape escapes rest
    | none => '\\' :: unescape escapes (c :: rest)
  | c :: rest => c :: unescape escapes rest
  | [] => []

/-- The escapes in single quotes. -/
def singleEscapes : List (Char × Char) := [('\\', '\\'), ('\'', '\'')]

/-- The escapes in double quotes. -/
def doubleEscapes : List (Char × Char) :=
  [('\\', '\\'), ('\'', '\''), ('"', '"'), ('a', '\x07'), ('b', '\x08'), ('f', '\x0c'),
    ('n', '\n'), ('r', '\r'), ('t', '\t'), ('v', '\x0b')]

/-- A value in quotes, after the opening one; `text` is what starts with that. -/
def takeQuoted (mark : Char) (escapes : List (Char × Char)) (text quoted : List Char) :
    Part String :=
  match quotedLength mark quoted 0 none with
  | none => .error text
  | some length =>
    .ok (String.ofList (unescape escapes (quoted.take length)), quoted.drop (length + 1))

/-- A line up to a comment, which blanks stand before. -/
def beforeComment : List Char → List Char
  | [] => []
  | c :: rest =>
    if Text.isBlank c && (Text.trimStart rest).head? == some '#' then []
    else c :: beforeComment rest

/-- The value after an equals sign and the blanks behind it. -/
def takeValue (text : List Char) : Part String :=
  match text with
  | '\'' :: quoted => takeQuoted '\'' singleEscapes text quoted
  | '"' :: quoted => takeQuoted '"' doubleEscapes text quoted
  | _ =>
    let line := text.takeWhile (!isLineEnd ·)
    .ok (String.ofList (Text.trimEnd (beforeComment line)), text.drop line.length)

/-- What follows a line of which nothing is left but a comment. -/
def endLine (text : List Char) : Part Unit :=
  let inner := skipInner text
  let rest := if inner.head? == some '#' then inner.dropWhile (!isLineEnd ·) else inner
  match rest with
  | [] => .ok ((), [])
  | c :: after => if isLineEnd c then .ok ((), after) else .error rest

/-! ## Lines -/

/-- A name with its value, if an equals sign follows it. -/
abbrev Binding := String × Option String

/-- One line: the name that it binds, if it does, and the rest. -/
def takeLine (text : List Char) : Except (List Char) (Option Binding × List Char) := do
  let (name, rest) ← takeName (skipExport text)
  match skipInner rest with
  | '=' :: rest =>
    let (value, rest) ← takeValue (skipInner rest)
    let ((), rest) ← endLine rest
    return (name.map (·, some value), rest)
  | rest =>
    let ((), rest) ← endLine rest
    return (name.map (·, none), rest)

/-- The bindings of a text. The `lines` are as many as it can have. -/
def takeLines : (lines : Nat) → List Char → List Binding
  | 0, _ => []
  | lines + 1, text =>
    match Text.trimStart text with
    | [] => []
    | text => match takeLine text with
      | .ok (binding, rest) => binding.toList ++ takeLines lines rest
      | .error rest => takeLines lines (nextLine rest)

/-! ## References -/

/-- A reference after the mark that starts it: its name, what it stands for if there is
no such variable, and the rest. -/
def takeReference (text : List Char) : Option (String × String × List Char) :=
  let name := text.takeWhile fun c => c != '\x7d' && c != ':'
  match text.drop name.length with
  | '\x7d' :: rest => some (String.ofList name, "", rest)
  | ':' :: '-' :: other =>
    let default := other.takeWhile (· != '\x7d')
    match other.drop default.length with
    | '\x7d' :: rest => some (String.ofList name, String.ofList default, rest)
    | _ => none
  | _ => none

/-- A value with its references replaced. The `steps` are as many as it has characters. -/
def replaceReferences (meaning : String → Option String) : (steps : Nat) → List Char → String
  | 0, _ => ""
  | _, [] => ""
  | steps + 1, c :: rest =>
    let plain := String.singleton c ++ replaceReferences meaning steps rest
    match c, rest with
    | '$', '\x7b' :: inner => match takeReference inner with
      | some (name, default, rest) =>
        (meaning name).getD default ++ replaceReferences meaning steps rest
      | none => plain
    | _, _ => plain

/-- The variables with the references in their values replaced: by the variables before
them, which may be without a value, and then by those of the environment. -/
def resolve (environment : Table String String) (bindings : List Binding) :
    Table String (Option String) :=
  bindings.foldl (fun before (name, value) =>
    let meaning (name : String) : Option String := match before.lookup name with
      | some value => some (value.getD "")
      | none => environment.lookup name
    Table.set name (value.map fun v => replaceReferences meaning v.length v.toList) before) []

/-- The variables of a file. -/
def assignments (environment : Table String String) (text : List Char) :
    Table String (Option String) :=
  resolve environment (takeLines (text.length + 1) text)

end ProviderRegistry.EnvFile
