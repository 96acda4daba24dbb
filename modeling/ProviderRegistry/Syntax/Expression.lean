import ProviderRegistry.Syntax.Lexer
import ProviderRegistry.Syntax.Parse
import ProviderRegistry.Syntax.Tree

/-!
# Expressions

The rules for expressions. Only names, attributes, subscripts, calls,
constants and displays leave a trace in the tree, so operators of all
strengths are read in three layers: arithmetic, comparison and logic. A rule
that needs an expression inside brackets takes it from the `Level` below,
whose number of steps is smaller; `levelAt` puts the levels together.
-/

namespace ProviderRegistry.Syntax

/-- The rules for expressions up to one depth of nesting. -/
structure Level where
  /-- The most repetitions of a part. -/
  steps : Nat
  /-- A name, constant or display with what is attached to it. -/
  primary : Parse Expr
  /-- Operands with arithmetic operators between them. -/
  arithmetic : Parse Expr
  /-- Comparisons with logical operators between them. -/
  logic : Parse Expr
  /-- A conditional expression or a function without a name. -/
  expression : Parse Expr

/-- Whether an expression can start with a token. -/
def startsExpression : Token.Kind → Bool
  | .name _ => true
  | .number _ => true
  | .string _ => true
  | .op s => ["(", "[", "\x7b", "+", "-", "~", "..."].contains s
  | .keyword w => ["None", "True", "False", "not", "lambda", "await"].contains w
  | _ => false

/-- Whether an expression or a starred one can start with a token. -/
def startsItem (kind : Token.Kind) : Bool := startsExpression kind || kind.isOp "*"

/-- Whether the clauses of a comprehension start with a token. -/
def startsClause (kind : Token.Kind) : Bool := kind.isKeyword "for" || kind.isKeyword "async"

/-! ## Targets

What can be assigned to is read as an expression and then looked at.
-/

namespace Expr

/-- Whether an expression is a name, an attribute or a subscript, with or without
parentheses. -/
def isSingleTarget : Expr → Bool
  | name _ => true
  | member _ _ => true
  | subscript _ => true
  | parenthesized inner => inner.isSingleTarget
  | _ => false

mutual

/-- Whether an expression can be assigned to, a star in front of it aside. -/
def isPlainTarget : Expr → Bool
  | name _ => true
  | member _ _ => true
  | subscript _ => true
  | parenthesized inner => inner.isPlainTarget
  | tuple items true => areTargets items
  | list items => areTargets items
  | _ => false

/-- Whether an expression can be assigned to as one of several. -/
def isTarget : Expr → Bool
  | starred inner => inner.isPlainTarget
  | name _ => true
  | member _ _ => true
  | subscript _ => true
  | parenthesized inner => inner.isPlainTarget
  | tuple items true => areTargets items
  | list items => areTargets items
  | _ => false

/-- Whether all expressions can be assigned to. -/
def areTargets : List Expr → Bool
  | [] => true
  | e :: rest => e.isTarget && areTargets rest

end

/-- Whether an expression can stand on the left of an equals sign: one target, or
several with commas between them. -/
def isTargets : Expr → Bool
  | tuple items false => areTargets items
  | e => e.isTarget

mutual

/-- Whether an expression can be deleted. -/
def isDeletable : Expr → Bool
  | name _ => true
  | member _ _ => true
  | subscript _ => true
  | parenthesized inner => inner.isDeletable
  | tuple items true => areDeletable items
  | list items => areDeletable items
  | _ => false

/-- Whether all expressions can be deleted. -/
def areDeletable : List Expr → Bool
  | [] => true
  | e :: rest => e.isDeletable && areDeletable rest

end

end Expr

namespace Level

open Parse

/-! ## Lists of expressions -/

/-- The tuple that a list without brackets makes, or its only item. -/
def tupleOf (items : List Expr) (trailing : Bool) : Expr :=
  match items, trailing with
  | [e], false => e
  | _, _ => .tuple items false

/-- An expression or a starred one. -/
def starExpression (l : Level) : Parse Expr := do
  if ← op? "*" then return .starred (← l.arithmetic) else l.expression

/-- Expressions with commas between them, some of them starred. -/
def starExpressions (l : Level) : Parse Expr := do
  let (items, trailing) ← commaList startsItem l.starExpression l.steps
  return tupleOf items trailing

/-- An expression, or a name that it is bound to as well. The second outcome says
whether it is bound. -/
def bindable (l : Level) : Parse (Expr × Bool) := do
  match ← next?, ← second? with
  | some (.name _), some (.op ":=") => do
    skip
    skip
    let _ ← l.expression
    return (.opaqueTerm, true)
  | _, _ => do
    let e ← l.expression
    if ← peek (·.isOp ":=") then refuse
    return (e, false)

/-- An expression that may be bound to a name. -/
def namedExpression (l : Level) : Parse Expr := return (← l.bindable).1

/-- An item of a display. -/
def displayItem (l : Level) : Parse Expr := do
  if ← op? "*" then return .starred (← l.arithmetic) else l.namedExpression

/-- A yield, after its keyword. -/
def yieldTail (l : Level) : Parse Unit := do
  if ← keyword? "from" then
    let _ ← l.expression
  else if ← peek startsItem then
    let _ ← l.starExpressions

/-- What a value can be: expressions, or a yield. -/
def value (l : Level) : Parse Expr := do
  if ← keyword? "yield" then
    l.yieldTail
    return .opaqueTerm
  else l.starExpressions

/-! ## Comprehensions -/

/-- A target that stands in front of a keyword. -/
def target (l : Level) : Parse Expr := do
  let e ← if ← op? "*" then (return .starred (← l.primary) : Parse Expr) else l.primary
  if e.isTarget then return e else refuse

/-- Targets with commas between them. -/
def targets (l : Level) : Parse Unit := do
  let _ ← commaList startsItem l.target l.steps

/-- The conditions of a clause. -/
def conditions (l : Level) : Parse Unit := do
  let _ ← many (do
    if ← keyword? "if" then return some (← l.logic) else return none) l.steps

/-- A clause of a comprehension, if one follows. -/
def clause? (l : Level) : Parse (Option Unit) := do
  if ← peek startsClause then
    let _ ← keyword? "async"
    keyword "for"
    l.targets
    keyword "in"
    let _ ← l.logic
    l.conditions
    return some ()
  else return none

/-- The clauses of a comprehension, one at least. -/
def clauses (l : Level) : Parse Unit := do
  if (← many l.clause? l.steps).isEmpty then refuse

/-! ## Displays -/

/-- What stands in parentheses, after the opening one. -/
def parenthesesTail (l : Level) : Parse Expr := do
  if ← op? ")" then return .tuple [] true
  if ← keyword? "yield" then
    l.yieldTail
    op ")"
    return .parenthesized .opaqueTerm
  let first ← l.displayItem
  let isStarred := first matches .starred _
  if ← op? "," then
    let (rest, _) ← if ← peek startsItem then commaList startsItem l.displayItem l.steps
      else pure ([], true)
    op ")"
    return .tuple (first :: rest) true
  else if isStarred then refuse
  else if ← peek startsClause then
    l.clauses
    op ")"
    return .opaqueTerm
  else
    op ")"
    return .parenthesized first

/-- What stands in square brackets as a display, after the opening one. -/
def listTail (l : Level) : Parse Expr := do
  if ← op? "]" then return .list []
  let first ← l.displayItem
  if ← peek startsClause then
    if first matches .starred _ then refuse
    l.clauses
    op "]"
    return .opaqueTerm
  else
    let (rest, _) ← commaItems startsItem l.displayItem l.steps
    op "]"
    return .list (first :: rest)

/-- A colon and a value, after a key. -/
def valueOfKey (l : Level) : Parse Unit := do
  op ":"
  let _ ← l.expression

/-- An entry of a mapping. -/
def mappingItem (l : Level) : Parse Unit := do
  if ← op? "**" then
    let _ ← l.arithmetic
  else
    let _ ← l.expression
    l.valueOfKey

/-- Whether an entry of a mapping can start with a token. -/
def startsMappingItem (kind : Token.Kind) : Bool := startsExpression kind || kind.isOp "**"

/-- The rest of a display in braces, after its first entry. -/
def mappingTail (l : Level) : Parse Unit := do
  let _ ← commaItems startsMappingItem l.mappingItem l.steps
  op "\x7d"

/-- What stands in braces, after the opening one: a mapping or a set. -/
def bracesTail (l : Level) : Parse Unit := do
  if ← op? "\x7d" then return
  if ← peek (·.isOp "**") then
    l.mappingItem
    l.mappingTail
  else if ← peek (·.isOp "*") then
    let _ ← commaList startsItem l.displayItem l.steps
    op "\x7d"
  else
    let (_, isBound) ← l.bindable
    if !isBound && (← peek (·.isOp ":")) then
      l.valueOfKey
      if ← peek startsClause then
        l.clauses
        op "\x7d"
      else l.mappingTail
    else if ← peek startsClause then
      l.clauses
      op "\x7d"
    else
      let _ ← commaItems startsItem l.displayItem l.steps
      op "\x7d"

/-! ## Constants -/

/-- The constant that adjacent literals make up: all texts or all bytes. It is no
constant if one of them is formatted. -/
def joinPieces (pieces : List StringPiece) : Option Expr :=
  let texts := pieces.filterMap fun
    | .text s => some s
    | _ => none
  let bytes := pieces.filterMap fun
    | .bytes b => some b
    | _ => none
  if bytes.length = pieces.length then some (.constant (.bytes bytes.flatten))
  else if !bytes.isEmpty then none
  else if texts.length = pieces.length then some (.constant (.str (String.ofList texts.flatten)))
  else some .opaqueTerm

/-- Whether the text inside a formatted literal is an expression. -/
def isFormattable (l : Level) (text : List Char) : Bool :=
  match lex ('(' :: text ++ [')']) with
  | some tokens => (l.expression tokens).isSome
  | none => false

/-- Whether a literal is well-formed inside. -/
def isWellFormed (l : Level) : StringPiece → Bool
  | .formatted expressions => expressions.all l.isFormattable
  | _ => true

/-- String literals, one at least. -/
def strings (l : Level) : Parse Expr := do
  let pieces ← many (fun tokens =>
    match tokens with
    | ⟨.string piece, _⟩ :: rest => some (some piece, rest)
    | _ => some (none, tokens)) (l.steps + 1)
  if pieces.isEmpty || !pieces.all l.isWellFormed then refuse
  match joinPieces pieces with
  | some e => return e
  | none => refuse

/-- The constants that are words. -/
def wordConstants : List (String × Literal) :=
  [("None", .none), ("True", .bool true), ("False", .bool false)]

/-- A name, a constant or a display. -/
def atom (l : Level) : Parse Expr := do
  match ← next? with
  | some (.name id) =>
    skip
    return .name id
  | some (.number value) =>
    skip
    return .constant value
  | some (.string _) => l.strings
  | some (.keyword word) =>
    match wordConstants.lookup word with
    | some value =>
      skip
      return .constant value
    | none => refuse
  | some (.op symbol) =>
    skip
    match symbol with
    | "(" => l.parenthesesTail
    | "[" => l.listTail
    | "\x7b" =>
      l.bracesTail
      return .opaqueTerm
    | "..." => return .constant .ellipsis
    | _ => refuse
  | _ => refuse

/-! ## Attributes, subscripts and calls -/

/-- The bounds of a slice, from its first colon on. -/
def sliceTail (l : Level) : Parse Unit := do
  op ":"
  if ← peek startsExpression then
    let _ ← l.expression
  if ← op? ":" then
    if ← peek startsExpression then
      let _ ← l.expression

/-- A subscript or a slice, or, if `stars` are allowed, a starred expression. The
outcome says whether it was starred. -/
def subscriptItem (l : Level) : Parse Bool := do
  if ← op? "*" then
    let _ ← l.expression
    return true
  if ← peek (·.isOp ":") then
    l.sliceTail
    return false
  let (_, isBound) ← l.bindable
  if !isBound && (← peek (·.isOp ":")) then l.sliceTail
  return false

/-- Whether a subscript can start with a token. -/
def startsSubscript (kind : Token.Kind) : Bool := startsItem kind || kind.isOp ":"

/-- What stands in the brackets of a subscript, after the opening one. -/
def subscriptTail (l : Level) : Parse Unit := do
  let _ ← commaList startsSubscript l.subscriptItem l.steps
  op "]"

/-- The arguments of a call. -/
structure Arguments where
  positional : List Expr := []
  named : List (Option String × Expr) := []

/-- Which arguments may follow: all sorts, or none but named and starred ones, or
none but named ones and mappings. -/
inductive ArgumentPhase where
  | any
  | noPlain
  | noStarred
  deriving DecidableEq

/-- One argument, added to those before it. -/
def argument (l : Level) (phase : ArgumentPhase) (args : Arguments) :
    Parse (ArgumentPhase × Arguments) := do
  if ← op? "**" then
    let e ← l.expression
    return (.noStarred, { args with named := args.named ++ [(none, e)] })
  if ← peek (·.isOp "*") then
    if phase = .noStarred then refuse
    skip
    let e ← l.expression
    return (phase, { args with positional := args.positional ++ [.starred e] })
  match ← next?, ← second? with
  | some (.name id), some (.op "=") =>
    skip
    skip
    let e ← l.expression
    return (if phase = .any then .noPlain else phase,
      { args with named := args.named ++ [(some id.text, e)] })
  | _, _ =>
    if phase != .any then refuse
    let e ← l.namedExpression
    if ← peek (·.isOp "=") then refuse
    return (phase, { args with positional := args.positional ++ [e] })

/-- Whether an argument can start with a token. -/
def startsArgument (kind : Token.Kind) : Bool := startsItem kind || kind.isOp "**"

/-- Arguments with commas between them, after a first one. -/
def argumentsTail (l : Level) : (steps : Nat) → ArgumentPhase → Arguments → Parse Arguments
  | 0, _, args => return args
  | steps + 1, phase, args => do
    if ← op? "," then
      if ← peek startsArgument then
        let (phase, args) ← l.argument phase args
        argumentsTail l steps phase args
      else return args
    else return args

/-- Arguments and the parenthesis that closes them. -/
def arguments (l : Level) : Parse Arguments := do
  if ← op? ")" then return {}
  let (phase, args) ← l.argument .any {}
  let args ← l.argumentsTail l.steps phase args
  op ")"
  return args

/-- The arguments of a call, after the opening parenthesis: those of any other list
of arguments, or a single comprehension. -/
def callTail (l : Level) : Parse Arguments := do
  if ← op? ")" then return {}
  let (phase, args) ← l.argument .any {}
  if ← peek startsClause then
    match args.positional, args.named with
    | [.starred _], _ => refuse
    | [_], [] =>
      l.clauses
      op ")"
      return { positional := [.opaqueTerm] }
    | _, _ => refuse
  else
    let args ← l.argumentsTail l.steps phase args
    op ")"
    return args

/-- What is attached to a primary expression, one piece after another. -/
def attachments (l : Level) : (steps : Nat) → Expr → Parse Expr
  | 0, e => return e
  | steps + 1, e => do
    if ← op? "." then
      let attr ← name
      attachments l steps (.member e attr)
    else if ← op? "(" then
      let args ← l.callTail
      attachments l steps (.call e args.positional args.named)
    else if ← op? "[" then
      l.subscriptTail
      attachments l steps (.subscript e)
    else return e

/-- An atom with what is attached to it. -/
def primaryRule (l : Level) : Parse Expr := do
  let e ← l.atom
  l.attachments l.steps e

/-! ## Operators -/

/-- The operators between operands. -/
def arithmeticOperators : List String :=
  ["|", "^", "&", "<<", ">>", "+", "-", "*", "/", "//", "%", "@", "**"]

/-- Whether a token is an operator in front of an operand. -/
def isSign (kind : Token.Kind) : Bool := kind.isOp "+" || kind.isOp "-" || kind.isOp "~"

/-- How often a token of a sort is next, one after another. -/
def countOf (sort : Token.Kind → Bool) (steps : Nat) : Parse Nat := do
  return (← many (do if ← take? sort then return some () else return none) steps).length

/-- An operand: signs, a mark for waiting, and a primary expression. -/
def operand (l : Level) : Parse Expr := do
  let signs ← countOf isSign l.steps
  let waits ← keyword? "await"
  let e ← l.primaryRule
  return if signs = 0 && !waits then e else .opaqueTerm

/-- What is read first, or an opaque expression if more is read with it. -/
def single (first : Expr) (more : List Unit) : Expr :=
  if more.isEmpty then first else .opaqueTerm

/-- Operands with arithmetic operators between them. -/
def arithmeticRule (l : Level) : Parse Expr := do
  let first ← l.operand
  let more ← many (do
    if ← take? (fun kind => arithmeticOperators.any kind.isOp) then
      let _ ← l.operand
      return some ()
    else return none) l.steps
  return single first more

/-- A comparison operator, if one is next. -/
def comparison? : Parse Bool := do
  match ← next? with
  | some (.op symbol) =>
    if ["==", "!=", "<=", "<", ">=", ">"].contains symbol then
      skip
      return true
    else return false
  | some (.keyword "in") =>
    skip
    return true
  | some (.keyword "is") =>
    skip
    let _ ← keyword? "not"
    return true
  | some (.keyword "not") =>
    match ← second? with
    | some (.keyword "in") =>
      skip
      skip
      return true
    | _ => return false
  | _ => return false

/-- A comparison, with any number of negations in front of it. -/
def comparisonRule (l : Level) : Parse Expr := do
  let negations ← countOf (·.isKeyword "not") l.steps
  let first ← l.arithmeticRule
  let more ← many (do
    if ← comparison? then
      let _ ← l.arithmeticRule
      return some ()
    else return none) l.steps
  return if negations = 0 then single first more else .opaqueTerm

/-- Comparisons with logical operators between them. -/
def logicRule (l : Level) : Parse Expr := do
  let first ← l.comparisonRule
  let more ← many (do
    if ← take? (fun kind => kind.isKeyword "and" || kind.isKeyword "or") then
      let _ ← l.comparisonRule
      return some ()
    else return none) l.steps
  return single first more

/-! ## Parameters -/

/-- Where a list of parameters stands. -/
structure ParameterState where
  /-- Whether any parameter has been read. -/
  any : Bool := false
  /-- Whether one with a default value has been read, so that all must have one. -/
  defaults : Bool := false
  /-- Whether the mark that ends the positional parameters has been read. -/
  slash : Bool := false
  /-- Whether the star has been read, after which values may be left out again. -/
  star : Bool := false
  /-- Whether a parameter must follow, since a star stands alone. -/
  pending : Bool := false

/-- An annotation, if annotations are `allowed` and one is there. A starred
expression may be one if `stars` says so. -/
def annotation? (l : Level) (allowed stars : Bool) : Parse Unit := do
  if allowed then
    if ← op? ":" then
      if stars then
        let _ ← l.starExpression
      else
        let _ ← l.expression

/-- Parameters up to the token that ends them, which is not taken. -/
def parameters (l : Level) (annotated : Bool) (closes : Token.Kind → Bool) :
    (steps : Nat) → ParameterState → Parse Unit
  | 0, _ => refuse
  | steps + 1, s => do
    let continueWith := fun (s : ParameterState) => do
      if ← op? "," then parameters l annotated closes steps s
      else if s.pending || !(← peek closes) then refuse
    if ← peek closes then
      if s.pending then refuse
    else if ← op? "/" then
      if !s.any || s.slash || s.star then refuse
      continueWith { s with slash := true }
    else if ← op? "**" then
      if s.pending then refuse
      let _ ← name
      l.annotation? annotated false
      let _ ← op? ","
      if !(← peek closes) then refuse
    else if ← op? "*" then
      if s.star then refuse
      if ← peek (·.isOp ",") then continueWith { s with star := true, pending := true }
      else
        let _ ← name
        l.annotation? annotated true
        continueWith { s with star := true }
    else
      let _ ← name
      l.annotation? annotated false
      if ← op? "=" then
        let _ ← l.expression
        continueWith { s with any := true, defaults := true, pending := false }
      else
        if s.defaults && !s.star then refuse
        continueWith { s with any := true, pending := false }

/-! ## Whole expressions -/

/-- A function without a name, after its keyword. -/
def functionTail (l : Level) : Parse Unit := do
  l.parameters false (·.isOp ":") (l.steps + 1) {}
  op ":"
  let _ ← l.expression

/-- A conditional expression or a function without a name. -/
def expressionRule (l : Level) : Parse Expr := do
  if ← keyword? "lambda" then
    l.functionTail
    return .opaqueTerm
  else
    let e ← l.logicRule
    if ← keyword? "if" then
      let _ ← l.logicRule
      keyword "else"
      let _ ← l.expression
      return .opaqueTerm
    else return e

end Level

/-- The rules for expressions nested no deeper than `depth`. -/
def levelAt : (depth : Nat) → Level
  | 0 => ⟨0, Parse.refuse, Parse.refuse, Parse.refuse, Parse.refuse⟩
  | depth + 1 =>
    { steps := depth + 1
      primary := fun tokens => (levelAt depth).primaryRule tokens
      arithmetic := fun tokens => (levelAt depth).arithmeticRule tokens
      logic := fun tokens => (levelAt depth).logicRule tokens
      expression := fun tokens => (levelAt depth).expressionRule tokens }

end ProviderRegistry.Syntax
