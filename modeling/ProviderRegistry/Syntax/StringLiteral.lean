import ProviderRegistry.Syntax.Number

/-!
# String literals

What stands between the quotes of a literal, and what it means. Escapes are
replaced unless the literal is raw, and an escape that means nothing is kept
as it stands. In a formatted literal the braces enclose expressions; the
scan finds where each of them ends and leaves their meaning to the grammar.
-/

namespace ProviderRegistry.Syntax

/-- What the letters in front of a literal say about it. -/
structure StringPrefix where
  raw : Bool := false
  bytes : Bool := false
  formatted : Bool := false
  /-- Whether the letter for texts is there, after which no other may come. -/
  unicode : Bool := false

/-- One more letter in front of a literal, if it may stand there. -/
def StringPrefix.extend? (p : StringPrefix) (c : Char) : Option StringPrefix :=
  let plain := !(p.bytes || p.unicode || p.formatted)
  if plain && (c = 'b' || c = 'B') then some { p with bytes := true }
  else if plain && !p.raw && (c = 'u' || c = 'U') then some { p with unicode := true }
  else if !(p.raw || p.unicode) && (c = 'r' || c = 'R') then some { p with raw := true }
  else if plain && (c = 'f' || c = 'F') then some { p with formatted := true }
  else none

/-- The letters in front of a literal, if a text starts with a literal: what they
say, and the text from the quote on. -/
def takePrefix (p : StringPrefix) : List Char → Option (StringPrefix × List Char)
  | [] => none
  | c :: rest =>
    if c = '\'' || c = '"' then some (p, c :: rest)
    else match p.extend? c with
      | some p => takePrefix p rest
      | none => none

/-- The body of a literal that ends with one quote, or with three, and the rest. A
backslash takes the next character with it, and a newline may stand only in a
literal with three quotes. -/
def takeBody (quote : Char) (triple : Bool) : List Char → Option (List Char × List Char)
  | [] => none
  | ['\\'] => none
  | '\\' :: c :: rest => (takeBody quote triple rest).map fun (b, r) => ('\\' :: c :: b, r)
  | c :: rest =>
    if c = quote then
      if !triple then some ([], rest)
      else match rest with
        | d :: e :: more =>
          if d = quote && e = quote then some ([], more)
          else (takeBody quote triple rest).map fun (b, r) => (c :: b, r)
        | _ => none
    else if c = '\n' && !triple then none
    else (takeBody quote triple rest).map fun (b, r) => (c :: b, r)

/-- The body of the literal that a text starts with, and the rest. -/
def takeQuoted : List Char → Option (List Char × List Char)
  | [] => none
  | q :: rest =>
    match rest with
    | q' :: q'' :: more =>
      if q' = q && q'' = q then takeBody q true more
      else if q' = q then some ([], q'' :: more)
      else takeBody q false rest
    | _ => takeBody q false rest

/-- A number in hexadecimal, of exactly `width` digits, and the rest. -/
def takeHex (width : Nat) (text : List Char) : Option (Nat × List Char) :=
  let digits := text.take width
  if digits.length = width && digits.all (isDigitOf 16) then
    some (digitsValue 16 digits, text.drop width)
  else none

/-- Up to three octal digits and the rest. -/
def takeOctal (text : List Char) : Nat × List Char :=
  let digits := (text.take 3).takeWhile (isDigitOf 8)
  (digitsValue 8 digits, text.drop digits.length)

/-- The characters that one letter after a backslash stands for. -/
def letterEscapes : List (Char × Char) :=
  [('\\', '\\'), ('\'', '\''), ('"', '"'), ('a', '\x07'), ('b', '\x08'), ('f', '\x0c'),
    ('n', '\n'), ('r', '\r'), ('t', '\t'), ('v', '\x0b')]

/-- Whether a text can be the name of a character. -/
def isCharacterName (name : List Char) : Bool :=
  name != [] && name.all fun c => c.isAlphanum || c == ' ' || c == '-'

/-- The text that an escape stands for and the rest, given what follows the
backslash. Nothing when the escape is broken off or names no character. -/
def takeEscape : List Char → Option (List Char × List Char)
  | [] => some (['\\'], [])
  | c :: rest =>
    let numbered := fun width => do
      let (n, rest) ← takeHex width rest
      if n < 0x110000 then some ([Char.ofNat n], rest) else none
    if c = '\n' then some ([], rest)
    else match letterEscapes.lookup c with
      | some e => some ([e], rest)
      | none =>
        if isDigitOf 8 c then
          let (n, rest) := takeOctal (c :: rest)
          some ([Char.ofNat n], rest)
        else if c = 'x' then numbered 2
        else if c = 'u' then numbered 4
        else if c = 'U' then numbered 8
        else if c = 'N' then
          match rest with
          | '\x7b' :: more =>
            let name := more.takeWhile (· != '\x7d')
            match more.dropWhile (· != '\x7d') with
            | _ :: rest => if isCharacterName name then some (['\uFFFD'], rest) else none
            | [] => none
          | _ => none
        else some (['\\', c], rest)

/-- Replaces the escapes of a text; each of the `steps` reads one character. -/
def unescapeText : (steps : Nat) → List Char → Option (List Char)
  | 0, _ => some []
  | _, [] => some []
  | steps + 1, '\\' :: rest => do
    let (out, rest) ← takeEscape rest
    return out ++ (← unescapeText steps rest)
  | steps + 1, c :: rest => (unescapeText steps rest).map (c :: ·)

/-- Replaces the escapes of a sequence of bytes; each of the `steps` reads one
character. The escapes by number in a text are plain characters here. -/
def unescapeBytes : (steps : Nat) → List Char → Option (List UInt8)
  | 0, _ => some []
  | _, [] => some []
  | steps + 1, '\\' :: c :: rest => do
    let byte := fun (c : Char) => c.toNat.toUInt8
    if c = '\n' then unescapeBytes steps rest
    else match letterEscapes.lookup c with
      | some e => (unescapeBytes steps rest).map (byte e :: ·)
      | none =>
        if isDigitOf 8 c then
          let (n, rest) := takeOctal (c :: rest)
          (unescapeBytes steps rest).map (n.toUInt8 :: ·)
        else if c = 'x' then
          let (n, rest) ← takeHex 2 rest
          (unescapeBytes steps rest).map (n.toUInt8 :: ·)
        else (unescapeBytes steps rest).map (92 :: byte c :: ·)
  | steps + 1, c :: rest => (unescapeBytes steps rest).map (c.toNat.toUInt8 :: ·)

/-! ## Formatted literals -/

/-- The most brackets that may be open at once. -/
def maxNesting : Nat := 200

/-- Where the scan of an expression stands: the quote of the literal it is inside
of, if any, and whether that has three quotes; and the open brackets. -/
structure ExpressionScan where
  quote : Option (Char × Bool) := none
  brackets : List Char := []

/-- The bracket that closes a bracket. -/
def closing (c : Char) : Char := if c = '(' then ')' else if c = '[' then ']' else '\x7d'

/-- The expression at the start of a text, up to the character that ends it, and
the text from that character on. A backslash or a comment may not stand in an
expression; comparison operators do not end it. -/
def takeExpression (scan : ExpressionScan) : List Char → Option (List Char × List Char)
  | [] => none
  | '\\' :: _ => none
  | c :: rest =>
    let keep := fun (scan : ExpressionScan) =>
      (takeExpression scan rest).map fun (e, r) => (c :: e, r)
    match scan.quote with
    | some (q, triple) =>
      if c != q then keep scan
      else if !triple then keep { scan with quote := none }
      else match rest with
        | d :: e :: more =>
          if d = q && e = q then
            (takeExpression { scan with quote := none } more).map fun (x, r) =>
              (c :: d :: e :: x, r)
          else keep scan
        | _ => keep scan
    | none =>
      if c = '\'' || c = '"' then
        match rest with
        | d :: e :: more =>
          if d = c && e = c then
            (takeExpression { scan with quote := some (c, true) } more).map
              fun (x, r) => (c :: d :: e :: x, r)
          else keep { scan with quote := some (c, false) }
        | _ => keep { scan with quote := some (c, false) }
      else if c = '(' || c = '[' || c = '\x7b' then
        if maxNesting ≤ scan.brackets.length then none
        else keep { scan with brackets := c :: scan.brackets }
      else if c = '#' then none
      else if scan.brackets.isEmpty && ['!', ':', '\x7d', '=', '<', '>'].contains c then
        match rest with
        | '=' :: more =>
          if c = '!' || c = '=' || c = '<' || c = '>' then
            (takeExpression scan more).map fun (x, r) => (c :: '=' :: x, r)
          else some ([], c :: rest)
        | _ => if c = '<' || c = '>' then keep scan else some ([], c :: rest)
      else if c = ')' || c = ']' || c = '\x7d' then
        match scan.brackets with
        | [] => none
        | b :: brackets => if closing b = c then keep { scan with brackets } else none
      else keep scan

/-- Whether a character is a blank that the grammar ignores. -/
def isIgnored (c : Char) : Bool := c == ' ' || c == '\t' || c == '\n' || c == '\x0c'

/-- What may follow an expression: an equals sign that asks for its text, and a
conversion. -/
def skipConversion (text : List Char) : Option (List Char) :=
  let text := match text with
    | '=' :: rest => rest.dropWhile fun c => isIgnored c || c == '\r' || c == '\x0b'
    | _ => text
  match text with
  | '!' :: c :: rest => if c = 's' || c = 'r' || c = 'a' then some rest else none
  | '!' :: [] => none
  | _ => some text

/-- Skips the plain part of a formatted literal: what is skipped, reversed onto
`read`, and the rest, which starts with a brace unless the literal has ended.
On the top level a doubled brace is plain, and a closing one may not stand
alone. Each of the `steps` reads one character. -/
def takePlain (raw top : Bool) : (steps : Nat) → (read text : List Char) →
    Option (List Char × List Char)
  | 0, read, text => some (read.reverse, text)
  | _, read, [] => some (read.reverse, [])
  | steps + 1, read, c :: rest =>
    let brace := fun (read : List Char) (c : Char) (rest : List Char) =>
      if !top then some (read.reverse, c :: rest)
      else match rest with
        | d :: more =>
          if d = c then takePlain raw top steps (c :: read) more
          else if c = '\x7d' then none
          else some (read.reverse, c :: rest)
        | [] => if c = '\x7d' then none else some (read.reverse, [c])
    if c = '\\' && !raw then
      match rest with
      | 'N' :: '\x7b' :: more =>
        let name := more.takeWhile (· != '\x7d')
        let named := name.reverse ++ '\x7b' :: 'N' :: c :: read
        match more.dropWhile (· != '\x7d') with
        | d :: after => takePlain raw top steps (d :: named) after
        | [] => some (named.reverse, [])
      | d :: more =>
        if d = '\x7b' || d = '\x7d' then brace (c :: read) d more
        else takePlain raw top steps (d :: c :: read) more
      | [] => some ((c :: read).reverse, [])
    else if c = '\x7b' || c = '\x7d' then brace read c rest
    else takePlain raw top steps (c :: read) rest

/-- The texts of the expressions in a formatted literal, or in a format inside
one, up to the end or to the brace that closes the format, and the rest.
Formats may be nested once. Each of the `steps` reads one part. -/
def takeParts (raw : Bool) : (steps level : Nat) → List Char → Option (List (List Char) × List Char)
  | 0, _, text => some ([], text)
  | steps + 1, level, text => do
    let (plain, rest) ← takePlain raw (level == 0) (text.length + 1) [] text
    if !raw && (unescapeText (plain.length + 1) plain).isNone then failure
    match rest with
    | '\x7b' :: body =>
      if 2 ≤ level then failure
      let (expression, rest) ← takeExpression {} body
      if expression.all isIgnored then failure
      let rest ← skipConversion rest
      let (inner, rest) ← match rest with
        | ':' :: format => takeParts raw steps (level + 1) format
        | _ => some ([], rest)
      match rest with
      | '\x7d' :: rest =>
        let (more, rest) ← takeParts raw steps level rest
        return (expression :: inner ++ more, rest)
      | _ => failure
    | _ => return ([], rest)

/-- The literal with a body and what stands in front of it. -/
def StringPrefix.piece? (p : StringPrefix) (body : List Char) : Option StringPiece :=
  if p.bytes then
    if body.all (·.toNat < 128) then
      if p.raw then some (.bytes (body.map fun c => c.toNat.toUInt8))
      else (unescapeBytes (body.length + 1) body).map .bytes
    else none
  else if p.formatted then do
    let (expressions, rest) ← takeParts p.raw (body.length + 1) 0 body
    if rest.isEmpty then some (.formatted expressions) else none
  else if p.raw then some (.text body)
  else (unescapeText (body.length + 1) body).map .text

/-- The string literal that a text starts with, if it starts with one, and the
rest; the inner option is empty when the literal is broken. -/
def takeString? (text : List Char) : Option (Option (StringPiece × List Char)) :=
  (takePrefix {} text).map fun (p, quoted) => do
    let (body, rest) ← takeQuoted quoted
    let piece ← p.piece? body
    return (piece, rest)

end ProviderRegistry.Syntax
