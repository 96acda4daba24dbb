import ProviderRegistry.Syntax.Token

/-!
# Rules of the grammar

A rule reads tokens from the front of a list. Every rule decides by the next
tokens alone, so a refusal is final; only where two readings share a long
start (`orElse`) is the second tried after the first.
-/

namespace ProviderRegistry.Syntax

/-- A rule: what it reads stands for a value, or it refuses. -/
abbrev Parse := StateT (List Token) Option

namespace Parse

/-- The rule that refuses. -/
def refuse : Parse α := fun _ => none

/-- The next token. -/
def next? : Parse (Option Token.Kind) := fun tokens => some (tokens.head?.map (·.kind), tokens)

/-- The token after the next one. -/
def second? : Parse (Option Token.Kind) := fun tokens => some (tokens[1]?.map (·.kind), tokens)

/-- The line of the next token. -/
def line : Parse Nat := fun tokens => some ((tokens.head?.map (·.line)).getD 0, tokens)

/-- Takes the next token, whatever it is. -/
def skip : Parse Unit := fun tokens => some ((), tokens.tail)

/-- Takes the next token if it is of a sort. -/
def take? (sort : Token.Kind → Bool) : Parse Bool := fun tokens =>
  match tokens with
  | t :: rest => if sort t.kind then some (true, rest) else some (false, tokens)
  | [] => some (false, [])

/-- Takes a token of a sort. -/
def expect (sort : Token.Kind → Bool) : Parse Unit := do
  unless ← take? sort do refuse

end Parse

namespace Token.Kind

/-- Whether a token is the given operator or bracket. -/
def isOp (symbol : String) : Token.Kind → Bool
  | op s => s == symbol
  | _ => false

/-- Whether a token is the given keyword. -/
def isKeyword (word : String) : Token.Kind → Bool
  | keyword w => w == word
  | _ => false

/-- Whether a token is the given name. -/
def isName (id : String) : Token.Kind → Bool
  | name n => n.text == id
  | _ => false

/-- Whether a token ends a line. -/
def isNewline : Token.Kind → Bool
  | newline => true
  | _ => false

/-- Whether a token is a deeper indentation. -/
def isIndent : Token.Kind → Bool
  | indent => true
  | _ => false

/-- Whether a token ends an indentation. -/
def isDedent : Token.Kind → Bool
  | dedent => true
  | _ => false

end Token.Kind

namespace Parse

/-- Whether the next token is of a sort. -/
def peek (sort : Token.Kind → Bool) : Parse Bool := return (← next?).any sort

/-- Takes an operator if it is next. -/
def op? (symbol : String) : Parse Bool := take? (·.isOp symbol)

/-- Takes an operator. -/
def op (symbol : String) : Parse Unit := expect (·.isOp symbol)

/-- Takes a keyword if it is next. -/
def keyword? (word : String) : Parse Bool := take? (·.isKeyword word)

/-- Takes a keyword. -/
def keyword (word : String) : Parse Unit := expect (·.isKeyword word)

/-- Takes a name. -/
def name : Parse Identifier := fun tokens =>
  match tokens with
  | ⟨.name id, _⟩ :: rest => some (id, rest)
  | _ => none

/-- Reads a part while it is there, at most `steps` times. -/
def many (part : Parse (Option α)) : (steps : Nat) → Parse (List α)
  | 0 => return []
  | steps + 1 => do
    match ← part with
    | none => return []
    | some a => return a :: (← many part steps)

/-- Reads the items that follow a first one, each after a comma, and says whether
a comma stands after the last. After a comma another item is read if the next
token is of the sort `starts`. -/
def commaItems (starts : Token.Kind → Bool) (item : Parse α) : (steps : Nat) →
    Parse (List α × Bool)
  | 0 => return ([], false)
  | steps + 1 => do
    if ← op? "," then
      if ← peek starts then
        let a ← item
        let (rest, trailing) ← commaItems starts item steps
        return (a :: rest, trailing)
      else return ([], true)
    else return ([], false)

/-- Reads items with commas between them, at least one, and says whether a comma
stands after the last. -/
def commaList (starts : Token.Kind → Bool) (item : Parse α) (steps : Nat) :
    Parse (List α × Bool) := do
  let first ← item
  let (rest, trailing) ← commaItems starts item steps
  return (first :: rest, trailing)

end Parse

end ProviderRegistry.Syntax
