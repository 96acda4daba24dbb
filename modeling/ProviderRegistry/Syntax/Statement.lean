import ProviderRegistry.Syntax.Pattern

/-!
# Statements

The rules for statements and for whole modules. Class statements, imports and
the blocks around them are kept; of other statements the tree says only that
they are there.
-/

namespace ProviderRegistry.Syntax

/-- The rules for statements up to one depth of nesting. -/
structure BlockLevel where
  patterns : PatternLevel
  /-- The body of a compound statement. -/
  block : Parse (List Stmt)

namespace BlockLevel

open Parse

/-- The rules for expressions. -/
def terms (b : BlockLevel) : Level := b.patterns.terms

/-- The most repetitions of a part. -/
def steps (b : BlockLevel) : Nat := b.terms.steps

/-! ## Simple statements -/

/-- The operators that change a target in place. -/
def augmentedOperators : List String :=
  ["+=", "-=", "*=", "@=", "/=", "%=", "&=", "|=", "^=", "<<=", ">>=", "**=", "//="]

/-- The rest of an assignment: the targets before, and the value or target read
last. What stands on the left of an equals sign must be a target. -/
def assignmentTail (b : BlockLevel) : (steps : Nat) → List Expr → Expr → Parse Stmt
  | 0, _, _ => refuse
  | steps + 1, targets, last => do
    if ← op? "=" then
      if !last.isTargets then refuse
      assignmentTail b steps (targets ++ [last]) (← b.terms.value)
    else return .assign targets last

/-- A statement that starts with an expression. -/
def expressionStatement (b : BlockLevel) : Parse Stmt := do
  let e ← b.terms.starExpressions
  if ← peek (·.isOp "=") then b.assignmentTail (b.steps + 1) [] e
  else if ← op? ":" then
    if !e.isSingleTarget then refuse
    let _ ← b.terms.expression
    if ← op? "=" then return .annotated e (some (← b.terms.value))
    else return .annotated e none
  else if ← take? (fun kind => augmentedOperators.any kind.isOp) then
    if !e.isSingleTarget then refuse
    let _ ← b.terms.value
    return .simple
  else return .expression e

/-- A dotted name. -/
def dottedName (b : BlockLevel) : Parse DottedName := do
  let first ← name
  let rest ← many (do
    if ← op? "." then return some (← name) else return none) b.steps
  return ⟨first, rest⟩

/-- The name that an import is bound to, if one is given. -/
def asName? : Parse (Option Identifier) := do
  if ← keyword? "as" then return some (← name) else return none

/-- A module to import. -/
def moduleAlias (b : BlockLevel) : Parse (Alias DottedName) := do
  let module ← b.dottedName
  return ⟨module, ← asName?⟩

/-- A name to import from a module. -/
def nameAlias : Parse (Alias Identifier) := do
  let id ← name
  return ⟨id, ← asName?⟩

/-- Whether a token is a name. -/
def isAnyName : Token.Kind → Bool
  | .name _ => true
  | _ => false

/-- How many packages up an import starts: a point counts one and an ellipsis three. -/
def levels (b : BlockLevel) : Parse Nat := do
  let points ← many (do
    if ← op? "." then return some 1
    else if ← op? "..." then return some 3
    else return none) b.steps
  return points.foldl (· + ·) 0

/-- An import of modules, after its keyword. -/
def importTail (b : BlockLevel) : Parse Stmt := do
  let (names, trailing) ← commaList isAnyName b.moduleAlias b.steps
  if trailing then refuse
  return .importNames names

/-- An import from a module, after its keyword. -/
def importFromTail (b : BlockLevel) : Parse Stmt := do
  let level ← b.levels
  let module ← if ← peek isAnyName then (return some (← b.dottedName) : Parse (Option DottedName))
    else pure none
  if level = 0 && module.isNone then refuse
  keyword "import"
  if ← op? "*" then return .importFrom module none level
  else if ← op? "(" then
    let (names, _) ← commaList isAnyName nameAlias b.steps
    op ")"
    return .importFrom module (some names) level
  else
    let (names, trailing) ← commaList isAnyName nameAlias b.steps
    if trailing then refuse
    return .importFrom module (some names) level

/-- Names with commas between them. -/
def names (b : BlockLevel) : Parse Unit := do
  let (_, trailing) ← commaList isAnyName name b.steps
  if trailing then refuse

/-- What is deleted. -/
def deletions (b : BlockLevel) : Parse Unit := do
  let (items, _) ← commaList startsExpression b.terms.primary b.steps
  if !Expr.areDeletable items then refuse
  if !(← peek fun kind => kind.isOp ";" || kind.isNewline) then refuse

/-- What is raised, and from what. -/
def raised (b : BlockLevel) : Parse Unit := do
  if ← peek startsExpression then
    let _ ← b.terms.expression
    if ← keyword? "from" then
      let _ ← b.terms.expression

/-- What is asserted, and the message for when it does not hold. -/
def asserted (b : BlockLevel) : Parse Unit := do
  let _ ← b.terms.expression
  if ← op? "," then
    let _ ← b.terms.expression

/-- What is returned. -/
def returned (b : BlockLevel) : Parse Unit := do
  if ← peek startsItem then
    let _ ← b.terms.starExpressions

/-- The rest of the simple statement that a keyword starts, if one does. -/
def keywordStatement (b : BlockLevel) (word : String) : Option (Parse Stmt) :=
  let simple (tail : Parse Unit) : Option (Parse Stmt) := some do
    tail
    return .simple
  match word with
  | "return" => simple b.returned
  | "import" => some b.importTail
  | "from" => some b.importFromTail
  | "raise" => simple b.raised
  | "pass" => simple (return)
  | "break" => simple (return)
  | "continue" => simple (return)
  | "del" => simple b.deletions
  | "yield" => simple b.terms.yieldTail
  | "assert" => simple b.asserted
  | "global" => simple b.names
  | "nonlocal" => simple b.names
  | _ => none

/-- A simple statement. -/
def simpleStatement (b : BlockLevel) : Parse Stmt := do
  match ← next? with
  | some (.keyword word) =>
    match b.keywordStatement word with
    | some tail =>
      skip
      tail
    | none => b.expressionStatement
  | _ => b.expressionStatement

/-- Simple statements on one line, with the line end. -/
def simpleStatements (b : BlockLevel) : Parse (List Stmt) := do
  let first ← b.simpleStatement
  let rest ← many (do
    if ← op? ";" then
      if ← peek (·.isNewline) then return none else return some (← b.simpleStatement)
    else return none) b.steps
  expect (·.isNewline)
  return first :: rest

/-! ## Compound statements -/

/-- A colon and a body. -/
def body (b : BlockLevel) : Parse (List Stmt) := do
  op ":"
  b.block

/-- The body behind a keyword, or none where the keyword is missing. -/
def bodyAfter (b : BlockLevel) (word : String) : Parse (List Stmt) := do
  if ← keyword? word then b.body else return []

/-- A conditional statement, after its keyword. -/
def ifTail (b : BlockLevel) : (steps : Nat) → Parse Stmt
  | 0 => refuse
  | steps + 1 => do
    let _ ← b.terms.namedExpression
    let body ← b.body
    if ← keyword? "elif" then return .ifElse body [← ifTail b steps]
    else return .ifElse body (← b.bodyAfter "else")

/-- A loop with a condition, after its keyword. -/
def whileTail (b : BlockLevel) : Parse Stmt := do
  let _ ← b.terms.namedExpression
  let body ← b.body
  return .compound (body ++ (← b.bodyAfter "else")) [] []

/-- A loop over items, after its keyword. -/
def forTail (b : BlockLevel) : Parse Stmt := do
  b.terms.targets
  keyword "in"
  let _ ← b.terms.starExpressions
  let body ← b.body
  return .compound (body ++ (← b.bodyAfter "else")) [] []

/-- A context and the target that it is bound to. -/
def contextItem (b : BlockLevel) : Parse Unit := do
  let _ ← b.terms.expression
  if ← keyword? "as" then
    let _ ← b.terms.target

/-- Contexts in parentheses, with the colon after them. -/
def bracketedContexts (b : BlockLevel) : Parse Unit := do
  op "("
  let _ ← commaList startsExpression b.contextItem b.steps
  op ")"
  op ":"

/-- Contexts without parentheses, with the colon after them. -/
def plainContexts (b : BlockLevel) : Parse Unit := do
  let (_, trailing) ← commaList startsExpression b.contextItem b.steps
  if trailing then refuse
  op ":"

/-- A statement with contexts, after its keyword. -/
def withTail (b : BlockLevel) : Parse Stmt := do
  b.bracketedContexts <|> b.plainContexts
  return .compound (← b.block) [] []

/-- What a handler catches and the name that it is bound to. -/
def caught (b : BlockLevel) : Parse Unit := do
  let _ ← b.terms.expression
  let _ ← asName?

/-- A handler of the given sort, if one follows. -/
def handler? (b : BlockLevel) (isGroup : Bool) : Parse (Option (List Stmt)) := do
  if ← keyword? "except" then
    if isGroup then
      op "*"
      b.caught
    else if !(← peek (·.isOp ":")) then b.caught
    return some (← b.body)
  else return none

/-- A statement with handlers, after its keyword. -/
def tryTail (b : BlockLevel) : Parse Stmt := do
  let body ← b.body
  if ← keyword? "finally" then return .tryExcept body [] [] (← b.body)
  let isGroup := (← second?).any (·.isOp "*")
  let handlers ← many (b.handler? isGroup) b.steps
  if handlers.isEmpty then refuse
  let orelse ← b.bodyAfter "else"
  let final ← b.bodyAfter "finally"
  return if isGroup then .compound body handlers (orelse ++ final)
    else .tryExcept body handlers orelse final

/-- What a match looks at: one expression, or a tuple if any is starred. -/
def subject (b : BlockLevel) : Parse Unit := do
  let (items, trailing) ← commaList startsItem b.terms.displayItem b.steps
  if !trailing && items matches [.starred _] then refuse

/-- A case, if one follows. -/
def case? (b : BlockLevel) : Parse (Option (List Stmt)) := do
  if ← take? (·.isName "case") then
    b.patterns.patterns
    if ← keyword? "if" then
      let _ ← b.terms.namedExpression
    return some (← b.body)
  else return none

/-- A match, with the word that it starts with. -/
def matchStatement (b : BlockLevel) : Parse (List Stmt) := do
  let _ ← name
  b.subject
  op ":"
  expect (·.isNewline)
  expect (·.isIndent)
  let cases ← many b.case? b.steps
  if cases.isEmpty then refuse
  expect (·.isDedent)
  return [.compound [] cases []]

/-- A class, from its keyword on. -/
def classStatement (b : BlockLevel) (decorators : List Expr) : Parse Stmt := do
  let line ← line
  keyword "class"
  let id ← name
  let args ← if ← op? "(" then b.terms.arguments else pure {}
  return .classDef line id args.positional decorators (← b.body)

/-- A function, after its keyword. -/
def functionTail (b : BlockLevel) (decorators : List Expr) : Parse Stmt := do
  let id ← name
  op "("
  b.terms.parameters true (·.isOp ")") (b.steps + 1) {}
  op ")"
  if ← op? "->" then
    let _ ← b.terms.expression
  return .functionDef id decorators (← b.body)

/-- A decorator, if one follows. -/
def decorator? (b : BlockLevel) : Parse (Option Expr) := do
  if ← op? "@" then
    let e ← b.terms.namedExpression
    expect (·.isNewline)
    return some e
  else return none

/-- A class or a function with decorators. -/
def decorated (b : BlockLevel) : Parse Stmt := do
  let decorators ← many b.decorator? b.steps
  if ← peek (·.isKeyword "class") then b.classStatement decorators
  else
    let _ ← keyword? "async"
    keyword "def"
    b.functionTail decorators

/-- A statement that may wait for others, after its first keyword. -/
def asyncTail (b : BlockLevel) : Parse Stmt := do
  if ← keyword? "def" then b.functionTail []
  else if ← keyword? "with" then b.withTail
  else
    keyword "for"
    b.forTail

/-- The rest of the compound statement that a keyword starts, if one does. -/
def compoundStatement (b : BlockLevel) (word : String) : Option (Parse Stmt) :=
  match word with
  | "if" => some (b.ifTail (b.steps + 1))
  | "while" => some b.whileTail
  | "for" => some b.forTail
  | "with" => some b.withTail
  | "try" => some b.tryTail
  | "def" => some (b.functionTail [])
  | "async" => some b.asyncTail
  | _ => none

/-- A statement, or several simple ones on a line. -/
def statement (b : BlockLevel) : Parse (List Stmt) := do
  match ← next? with
  | some (.op "@") => return [← b.decorated]
  | some (.keyword "class") => return [← b.classStatement []]
  | some (.keyword word) =>
    match b.compoundStatement word with
    | some tail =>
      skip
      return [← tail]
    | none => b.simpleStatements
  | some (.name id) =>
    if id.text = "match" then b.matchStatement <|> b.simpleStatements else b.simpleStatements
  | _ => b.simpleStatements

/-- Statements up to the end of an indentation or of the text. -/
def statements (b : BlockLevel) (steps : Nat) : Parse (List Stmt) := do
  return (← many (do
    match ← next? with
    | none => return none
    | some .dedent => return none
    | some _ => return some (← b.statement)) steps).flatten

/-- The body of a compound statement: on lines of its own, or on the same line. -/
def blockRule (b : BlockLevel) : Parse (List Stmt) := do
  if ← take? (·.isNewline) then
    expect (·.isIndent)
    let body ← b.statements b.steps
    expect (·.isDedent)
    return body
  else b.simpleStatements

end BlockLevel

/-- The rules for statements nested no deeper than `depth`. -/
def blockLevelAt (patterns : PatternLevel) : (depth : Nat) → BlockLevel
  | 0 => ⟨patterns, Parse.refuse⟩
  | depth + 1 => ⟨patterns, fun tokens => (blockLevelAt patterns depth).blockRule tokens⟩

/-- The statements that tokens make up, nested no deeper than `depth`. -/
def parseTokens (depth : Nat) (tokens : List Token) : Option (List Stmt) :=
  let rules := blockLevelAt (patternLevelAt (levelAt depth) depth) depth
  match rules.statements depth tokens with
  | some (statements, []) => some statements
  | _ => none

/-- The statements of a module, if its text follows the grammar. A null character may
not even stand in a comment. -/
def parseModule? (text : List Char) : Option (List Stmt) :=
  if text.contains '\x00' then none else (lex text).bind (parseTokens (text.length + 2))

end ProviderRegistry.Syntax
