import ProviderRegistry.Syntax.StringLiteral
import ProviderRegistry.Syntax.Token

/-!
# The lexer

A text as tokens. Indentation is measured twice, with a tab reaching to the
next multiple of eight and with a tab as wide as a blank, and both measures
must agree on whether a line is deeper than another. Inside brackets neither
line ends nor indentation count; the brackets themselves must match, which is
settled here and not by the grammar.
-/

namespace ProviderRegistry.Syntax

/-- How far a line is indented, in both measures. -/
structure Indent where
  wide : Nat := 0
  narrow : Nat := 0
  deriving DecidableEq, Repr

/-- What the lexer has read. -/
structure Lexer where
  /-- The number of the line that is being read. -/
  line : Nat := 1
  /-- The indentations that are open, innermost first; the one of the top level is
  not among them. -/
  indents : List Indent := []
  /-- The brackets that are open, innermost first. -/
  brackets : List Char := []
  /-- The tokens so far, last first. -/
  tokens : List Token := []

/-- The width of a tab in the wide measure. -/
def tabWidth : Nat := 8

/-- The most levels of indentation, the top level included. -/
def maxIndents : Nat := 100

/-- The indentation at the start of a line, how many lines it was continued over,
and the rest of the text. Where a backslash continues the line, the first one
pins the indentation, unless it stands at the margin. -/
def takeIndent (indent : Indent) (pinned lines : Nat) :
    List Char → Option (Indent × Nat × List Char)
  | ' ' :: rest => takeIndent ⟨indent.wide + 1, indent.narrow + 1⟩ pinned lines rest
  | '\t' :: rest =>
    takeIndent ⟨(indent.wide / tabWidth + 1) * tabWidth, indent.narrow + 1⟩ pinned lines rest
  | '\x0c' :: rest => takeIndent ⟨0, 0⟩ pinned lines rest
  | '\\' :: '\n' :: rest =>
    if rest.isEmpty then none
    else takeIndent indent (if pinned = 0 then indent.wide else pinned) (lines + 1) rest
  | '\\' :: _ => none
  | rest => some (if pinned = 0 then indent else ⟨pinned, pinned⟩, lines, rest)

/-- The token that a text starts with, line ends and indentation aside, and the
rest of the text. -/
def takeToken (text : List Char) : Option (Token.Kind × List Char) :=
  match takeString? text with
  | some piece => piece.map fun (piece, rest) => (.string piece, rest)
  | none =>
    match text with
    | [] => none
    | c :: rest =>
      if c.isDigit || (c == '.' && rest.head?.any (·.isDigit)) then
        (takeNumber text).map fun (value, rest) => (.number value, rest)
      else if isWordChar c then
        let word := text.takeWhile isWordChar
        if h : Text.isIdentifier word = true then
          some (.ofWord ⟨String.ofList word, by rwa [String.toList_ofList]⟩,
            text.dropWhile isWordChar)
        else none
      else
        (symbols.find? (·.isPrefixOf text)).map fun symbol =>
          (.op (String.ofList symbol), text.drop symbol.length)

namespace Lexer

/-- One more token on the current line. -/
def push (lexer : Lexer) (kind : Token.Kind) : Lexer :=
  { lexer with tokens := ⟨kind, lexer.line⟩ :: lexer.tokens }

/-- Moves on by a number of lines. -/
def advance (lexer : Lexer) (lines : Nat) : Lexer := { lexer with line := lexer.line + lines }

/-- Closes the indentations that a line leaves: what remains open must start with
the indentation of the line. -/
def closeTo (lexer : Lexer) (indent : Indent) : List Indent → Option Lexer
  | [] => if indent = {} then some { lexer with indents := [] } else none
  | top :: below =>
    if indent.wide < top.wide then (lexer.push .dedent).closeTo indent below
    else if indent = top then some { lexer with indents := top :: below }
    else none

/-- Opens, closes or keeps indentations for a line. -/
def indentTo (lexer : Lexer) (indent : Indent) : Option Lexer :=
  let current := lexer.indents.headD {}
  if current.wide < indent.wide then
    if indent.narrow ≤ current.narrow || maxIndents ≤ lexer.indents.length + 1 then none
    else some ({ lexer with indents := indent :: lexer.indents }.push .indent)
  else lexer.closeTo indent lexer.indents

/-- Opens or closes a bracket, if the token is one. -/
def bracket (lexer : Lexer) (kind : Token.Kind) : Option Lexer :=
  match kind with
  | .op symbol =>
    if symbol = "(" || symbol = "[" || symbol = "\x7b" then
      if maxNesting ≤ lexer.brackets.length then none
      else some { lexer with brackets := symbol.toList ++ lexer.brackets }
    else if symbol = ")" || symbol = "]" || symbol = "\x7d" then
      match lexer.brackets with
      | [] => none
      | opened :: brackets =>
        if symbol.toList = [closing opened] then some { lexer with brackets } else none
    else some lexer
  | _ => some lexer

/-- Reads the rest of a text that ends with a newline; `fresh` says whether a line
starts here. Each of the `steps` reads a token, a blank, a comment or a line
end. -/
def run : (steps : Nat) → (fresh : Bool) → Lexer → List Char → Option (List Token)
  | 0, _, _, _ => none
  | steps + 1, true, lexer, text => do
    let (indent, lines, rest) ← takeIndent {} 0 0 text
    let lexer := lexer.advance lines
    match rest with
    | [] =>
      if lexer.brackets.isEmpty then
        let lexer ← lexer.closeTo {} lexer.indents
        return lexer.tokens.reverse
      else none
    | '\n' :: rest => run steps true (lexer.advance 1) rest
    | '#' :: rest => run steps true lexer (rest.dropWhile (· != '\n'))
    | rest =>
      if lexer.brackets.isEmpty then run steps false (← lexer.indentTo indent) rest
      else run steps false lexer rest
  | steps + 1, false, lexer, text =>
    match text with
    | [] => none
    | '\n' :: rest =>
      let lexer := if lexer.brackets.isEmpty then lexer.push .newline else lexer
      run steps true (lexer.advance 1) rest
    | '\\' :: '\n' :: rest =>
      if rest.isEmpty then none else run steps false (lexer.advance 1) rest
    | '#' :: rest => run steps false lexer (rest.dropWhile (· != '\n'))
    | ' ' :: rest => run steps false lexer rest
    | '\t' :: rest => run steps false lexer rest
    | '\x0c' :: rest => run steps false lexer rest
    | text => do
      let (kind, rest) ← takeToken text
      let lexer ← (lexer.push kind).bracket kind
      let lines := match kind with
        | .string _ => (text.take (text.length - rest.length)).count '\n'
        | _ => 0
      run steps false (lexer.advance lines) rest

end Lexer

/-- A text with a newline at its end. -/
def withFinalNewline (text : List Char) : List Char :=
  if text.getLast? = some '\n' then text else text ++ ['\n']

/-- The tokens of a text. -/
def lex (text : List Char) : Option (List Token) :=
  let text := withFinalNewline text
  Lexer.run (2 * text.length + 1) true {} text

end ProviderRegistry.Syntax
