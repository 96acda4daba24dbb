import ProviderRegistry.Syntax.Expression

/-!
# Patterns

The rules for what a `case` matches. Nothing of a pattern is kept; the rules
only settle whether it is one. The lone underscore matches anything and is
never a name here.
-/

namespace ProviderRegistry.Syntax

/-- The rules for patterns up to one depth of nesting. -/
structure PatternLevel where
  terms : Level
  /-- A pattern, with the name it is bound to. -/
  pattern : Parse Unit

/-- Whether a pattern can start with a token. -/
def startsPattern : Token.Kind → Bool
  | .name _ => true
  | .number _ => true
  | .string _ => true
  | .op s => ["(", "[", "\x7b", "-", "*"].contains s
  | .keyword w => ["None", "True", "False"].contains w
  | _ => false

namespace PatternLevel

open Parse

/-- Whether a number is imaginary. -/
def isImaginary : Literal → Bool
  | .complex _ _ => true
  | _ => false

/-- A number. -/
def number : Parse Literal := do
  match ← next? with
  | some (.number value) =>
    skip
    return value
  | _ => refuse

/-- A number with an optional sign, or a sum of a real and an imaginary one. -/
def signedNumber : Parse Unit := do
  let _ ← op? "-"
  let first ← number
  if ← take? (fun kind => kind.isOp "+" || kind.isOp "-") then
    let second ← number
    if isImaginary first || !isImaginary second then refuse

/-- A number, a text or a constant that is a word, if one is next. -/
def literal? (p : PatternLevel) : Parse Bool := do
  match ← next? with
  | some (.number _) =>
    signedNumber
    return true
  | some (.op "-") =>
    signedNumber
    return true
  | some (.string _) =>
    let _ ← p.terms.strings
    return true
  | some (.keyword word) =>
    if (Level.wordConstants.lookup word).isSome then
      skip
      return true
    else return false
  | _ => return false

/-- Whether a token may not follow a name that is bound. -/
def continuesName (kind : Token.Kind) : Bool := kind.isOp "." || kind.isOp "(" || kind.isOp "="

/-- A name that is bound. -/
def capture : Parse Unit := do
  let id ← name
  if id.text = "_" || (← peek continuesName) then refuse

/-- The components of a dotted name after the first: how many there are. -/
def dots (steps : Nat) : Parse Nat := do
  return (← many (do
    if ← op? "." then
      let _ ← name
      return some ()
    else return none) steps).length

/-- A pattern behind a star, which binds a name or matches anything. -/
def afterStar : Parse Unit := do
  if ← take? (·.isName "_") then return
  capture

/-- A pattern in a sequence, and whether it is starred. -/
def sequenceItem (p : PatternLevel) : Parse Bool := do
  if ← op? "*" then
    afterStar
    return true
  else
    p.pattern
    return false

/-- The patterns of a class after the opening parenthesis: first those by position
and then those by name. -/
def classTail (p : PatternLevel) : (steps : Nat) → (byName : Bool) → Parse Unit
  | 0, _ => refuse
  | steps + 1, byName => do
    if ← op? ")" then return
    let named ← match ← next?, ← second? with
      | some (.name _), some (.op "=") => do
        skip
        skip
        p.pattern
        pure true
      | _, _ => do
        if byName then refuse
        p.pattern
        pure false
    if ← op? "," then classTail p steps named else op ")"

/-- An entry of a mapping: a constant or a dotted name, and a pattern. -/
def mappingItem (p : PatternLevel) : Parse Unit := do
  if !(← p.literal?) then
    let _ ← name
    if (← dots p.terms.steps) = 0 then refuse
  op ":"
  p.pattern

/-- The entries of a mapping after the opening brace; what is left over may be bound
at the end. -/
def mappingTail (p : PatternLevel) : (steps : Nat) → Parse Unit
  | 0 => refuse
  | steps + 1 => do
    if ← op? "\x7d" then return
    if ← op? "**" then
      capture
      let _ ← op? ","
      op "\x7d"
    else
      p.mappingItem
      if ← op? "," then mappingTail p steps else op "\x7d"

/-- What stands in parentheses, after the opening one: a pattern or a sequence. -/
def groupTail (p : PatternLevel) : Parse Unit := do
  if ← op? ")" then return
  let (items, trailing) ← commaList startsPattern p.sequenceItem p.terms.steps
  if items = [true] && !trailing then refuse
  op ")"

/-- What stands in square brackets, after the opening one. -/
def bracketsTail (p : PatternLevel) : Parse Unit := do
  if ← op? "]" then return
  let _ ← commaList startsPattern p.sequenceItem p.terms.steps
  op "]"

/-- A pattern that starts with a name: one that is bound, a dotted one, or a class
with patterns for its parts. -/
def namePattern (p : PatternLevel) : Parse Unit := do
  let id ← name
  if id.text = "_" then return
  let components ← dots p.terms.steps
  if ← op? "(" then p.classTail (p.terms.steps + 1) false
  else if ← peek (·.isOp "=") then refuse
  else if components = 0 && (← peek continuesName) then refuse

/-- A pattern without alternatives. -/
def closed (p : PatternLevel) : Parse Unit := do
  if ← p.literal? then return
  match ← next? with
  | some (.name _) => p.namePattern
  | some (.op symbol) =>
    skip
    match symbol with
    | "(" => p.groupTail
    | "[" => p.bracketsTail
    | "\x7b" => p.mappingTail (p.terms.steps + 1)
    | _ => refuse
  | _ => refuse

/-- Patterns with bars between them, and the name they are bound to. -/
def patternRule (p : PatternLevel) : Parse Unit := do
  p.closed
  let _ ← many (do
    if ← op? "|" then
      p.closed
      return some ()
    else return none) p.terms.steps
  if ← keyword? "as" then capture

/-- What follows `case`: a pattern, or a sequence without brackets. -/
def patterns (p : PatternLevel) : Parse Unit := do
  let (items, trailing) ← commaList startsPattern p.sequenceItem p.terms.steps
  if items = [true] && !trailing then refuse

end PatternLevel

/-- The rules for patterns nested no deeper than `depth`. -/
def patternLevelAt (terms : Level) : (depth : Nat) → PatternLevel
  | 0 => ⟨terms, Parse.refuse⟩
  | depth + 1 => ⟨terms, fun tokens => (patternLevelAt terms depth).patternRule tokens⟩

end ProviderRegistry.Syntax
