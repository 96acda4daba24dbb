import ProviderRegistry.Datum

/-!
# Data written as JSON

Reading a JSON text into a datum. The text must be one value with blanks around
it at most. The three words for numbers that JSON lacks are read as numbers.
-/

namespace ProviderRegistry.Datum

/-- Whether a character is a blank between the parts of a JSON text. -/
def isJsonBlank (c : Char) : Bool := c == ' ' || c == '\t' || c == '\n' || c == '\r'

/-- A text without the blanks at its start. -/
def skipBlanks (text : List Char) : List Char := text.dropWhile isJsonBlank

/-! ## Strings -/

/-- The value of a hexadecimal digit. -/
def hexDigit? (c : Char) : Option Nat :=
  if c.isDigit then some (c.toNat - 48)
  else if 'a' ≤ c && c ≤ 'f' then some (c.toNat - 87)
  else if 'A' ≤ c && c ≤ 'F' then some (c.toNat - 55)
  else none

/-- The number that four hexadecimal digits spell. -/
def hexUnit? (a b c d : Char) : Option Nat := do
  return (((← hexDigit? a) * 16 + (← hexDigit? b)) * 16 + (← hexDigit? c)) * 16 + (← hexDigit? d)

/-- The code point that a single character stands for after a backslash. -/
def simpleEscape? (c : Char) : Option Nat :=
  [('"', 34), ('\\', 92), ('/', 47), ('b', 8), ('f', 12), ('n', 10), ('r', 13), ('t', 9)].lookup c

/-- The code points of a string after its opening quote, and what follows its closing
one. Control characters must be escaped. -/
def stringUnits : List Char → Option (List Nat × List Char)
  | [] => none
  | '"' :: rest => some ([], rest)
  | '\\' :: 'u' :: a :: b :: c :: d :: rest => do
    let unit ← hexUnit? a b c d
    let (units, rest) ← stringUnits rest
    return (unit :: units, rest)
  | '\\' :: c :: rest => do
    let unit ← simpleEscape? c
    let (units, rest) ← stringUnits rest
    return (unit :: units, rest)
  | c :: rest =>
    if c.toNat < 32 || c == '\\' then none
    else (stringUnits rest).map fun (units, rest) => (c.toNat :: units, rest)

/-- The text of code points, of which two halves of one beyond the first plane are
joined. -/
def joinHalves : List Nat → List Char
  | [] => []
  | [unit] => [Char.ofNat unit]
  | high :: low :: rest =>
    if 0xD800 ≤ high && high < 0xDC00 && 0xDC00 ≤ low && low < 0xE000 then
      Char.ofNat (0x10000 + (high - 0xD800) * 0x400 + (low - 0xDC00)) :: joinHalves rest
    else Char.ofNat high :: joinHalves (low :: rest)

/-! ## Numbers -/

/-- The number that decimal digits spell. -/
def digitsValue (digits : List Char) : Nat := digits.foldl (fun n c => n * 10 + (c.toNat - 48)) 0

/-- The digits at the start of a text, of which there must be one, and the rest. -/
def takeDigits (text : List Char) : Option (List Char × List Char) :=
  let digits := text.takeWhile Char.isDigit
  if digits.isEmpty then none else some (digits, text.drop digits.length)

/-- The digits after a point, and the rest; none if no digit follows it. -/
def takeFraction (text : List Char) : List Char × List Char :=
  match text with
  | '.' :: rest => (takeDigits rest).getD ([], text)
  | _ => ([], text)

/-- An exponent and the rest; zero if there is none. -/
def takeExponent (text : List Char) : Int × List Char :=
  let unsigned (sign : Int) (rest : List Char) : Int × List Char :=
    match takeDigits rest with
    | some (digits, rest) => (sign * digitsValue digits, rest)
    | none => (0, text)
  match text with
  | e :: '-' :: rest => if e == 'e' || e == 'E' then unsigned (-1) rest else (0, text)
  | e :: '+' :: rest => if e == 'e' || e == 'E' then unsigned 1 rest else (0, text)
  | e :: rest => if e == 'e' || e == 'E' then unsigned 1 rest else (0, text)
  | [] => (0, [])

/-- The largest power of ten that a number is written out with. -/
def maxPower : Nat := 400

/-- A number from its parts. -/
def ofDecimal (sign : Int) (whole fraction : List Char) (exponent : Int) : Datum :=
  let places : Int := fraction.length - exponent
  let mantissa := sign * digitsValue (whole ++ fraction)
  if places < 0 then number (mantissa * (Nat.pow 10 (min maxPower (-places).toNat) : Nat)) 0
  else number mantissa (min maxPower places.toNat)

/-- A number at the start of a text, and the rest. A leading zero stands alone. -/
def takeNumber (text : List Char) : Option (Datum × List Char) := do
  let (sign, unsigned) : Int × List Char := match text with
    | '-' :: rest => (-1, rest)
    | _ => (1, text)
  let (whole, rest) ← match unsigned with
    | '0' :: rest => some (['0'], rest)
    | _ => takeDigits unsigned
  let (fraction, rest) := takeFraction rest
  let (exponent, rest) := takeExponent rest
  return (ofDecimal sign whole fraction exponent, rest)

/-- The words that stand for values. -/
def jsonWords : List (String × Datum) :=
  [("null", null), ("true", bool true), ("false", bool false), ("NaN", number 0 0),
    ("Infinity", number 0 0), ("-Infinity", number 0 0)]

/-- A word or a number at the start of a text, and the rest. -/
def takeScalar (text : List Char) : Option (Datum × List Char) :=
  match jsonWords.find? fun (word, _) => word.toList.isPrefixOf text with
  | some (word, value) => some (value, text.drop word.length)
  | none => takeNumber text

/-! ## Values -/

mutual

/-- A value at the start of a text, and the rest. The `depth` is more than the characters
that are left. -/
def takeValue : (depth : Nat) → List Char → Option (Datum × List Char)
  | 0, _ => none
  | depth + 1, text =>
    match text with
    | '"' :: rest => (stringUnits rest).map fun (units, rest) =>
      (str (String.ofList (joinHalves units)), rest)
    | '[' :: rest => match skipBlanks rest with
      | ']' :: rest => some (list [], rest)
      | rest => (takeItems depth rest).map fun (items, rest) => (list items, rest)
    | '\x7b' :: rest => match skipBlanks rest with
      | '\x7d' :: rest => some (record [], rest)
      | rest => (takeMembers depth rest).map fun (members, rest) => (record members, rest)
    | _ => takeScalar text

/-- The items of a list up to its end, and the rest. -/
def takeItems : (depth : Nat) → List Char → Option (List Datum × List Char)
  | 0, _ => none
  | depth + 1, text => do
    let (item, rest) ← takeValue depth text
    match skipBlanks rest with
    | ',' :: rest =>
      let (items, rest) ← takeItems depth (skipBlanks rest)
      return (item :: items, rest)
    | ']' :: rest => return ([item], rest)
    | _ => none

/-- The members of a record up to its end, and the rest. -/
def takeMembers : (depth : Nat) → List Char → Option (List (String × Datum) × List Char)
  | 0, _ => none
  | depth + 1, text => do
    match text with
    | '"' :: rest =>
      let (units, rest) ← stringUnits rest
      let name := String.ofList (joinHalves units)
      match skipBlanks rest with
      | ':' :: rest =>
        let (value, rest) ← takeValue depth (skipBlanks rest)
        match skipBlanks rest with
        | ',' :: rest =>
          let (members, rest) ← takeMembers depth (skipBlanks rest)
          return ((name, value) :: members, rest)
        | '\x7d' :: rest => return ([(name, value)], rest)
        | _ => none
      | _ => none
    | _ => none

end

/-- The value that a JSON text writes. -/
def ofJson? (text : List Char) : Option Datum := do
  let (value, rest) ← takeValue (2 * text.length + 2) (skipBlanks text)
  if (skipBlanks rest).isEmpty then some value else none

end ProviderRegistry.Datum
