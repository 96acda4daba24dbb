import ProviderRegistry.Decimal.Nearest
import ProviderRegistry.Syntax.Token
import ProviderRegistry.Text.Identifier

/-!
# Numbers

Numeric literals: whole numbers in four bases, decimal fractions with or
without an exponent, and imaginary numbers. Underscores may stand between two
digits. A number may not run into a letter, except the first letter of a word
that can follow a number in an expression.
-/

namespace ProviderRegistry.Syntax

/-- The value of a digit, letters included. -/
def digitValue (c : Char) : Nat :=
  if c.isDigit then c.toNat - 48
  else if 'a' ≤ c && c ≤ 'f' then c.toNat - 87
  else if 'A' ≤ c && c ≤ 'F' then c.toNat - 55
  else 99

/-- Whether a character is a digit in a base. -/
def isDigitOf (base : Nat) (c : Char) : Bool := digitValue c < base

/-- The number that digits stand for in a base. -/
def digitsValue (base : Nat) (digits : List Char) : Nat :=
  digits.foldl (fun n c => n * base + digitValue c) 0

/-- Digits with single underscores between them: the digits and the rest. What
follows an underscore must be a digit. -/
def takeDigits (base : Nat) : List Char → Option (List Char × List Char)
  | [] => some ([], [])
  | '_' :: d :: rest =>
    if isDigitOf base d then (takeDigits base rest).map fun (ds, r) => (d :: ds, r) else none
  | c :: rest =>
    if isDigitOf base c then (takeDigits base rest).map fun (ds, r) => (c :: ds, r)
    else if c = '_' then none
    else some ([], c :: rest)

/-- Whether a character can be part of a word: anything beyond ASCII counts. -/
def isWordChar (c : Char) : Bool := c.isAlphanum || c == '_' || 128 ≤ c.toNat

/-- The words that may follow a number without a blank. -/
def wordsAfterNumber : List (List Char) :=
  ["and", "else", "for", "if", "in", "is", "or", "not"].map String.toList

/-- Whether a number may end before this text. -/
def numberMayEnd (rest : List Char) : Bool :=
  match rest with
  | [] => true
  | c :: _ => !isWordChar c || wordsAfterNumber.any (·.isPrefixOf rest)

/-- The exponent of a decimal number, if one follows: its value and the rest. The
outer option is empty when the text cannot be a number. -/
def takeExponent (text : List Char) : Option (Option Int × List Char) :=
  let digits := fun (sign : Int) (rest : List Char) => (takeDigits 10 rest).map fun (ds, r) =>
    (some (sign * digitsValue 10 ds), r)
  match text with
  | e :: rest =>
    if e = 'e' || e = 'E' then
      match rest with
      | '+' :: d :: more => if d.isDigit then digits 1 (d :: more) else none
      | '-' :: d :: more => if d.isDigit then digits (-1) (d :: more) else none
      | '+' :: [] => none
      | '-' :: [] => none
      | d :: more => if d.isDigit then digits 1 (d :: more) else some (none, text)
      | [] => some (none, text)
    else some (none, text)
  | [] => some (none, text)

/-- The most decimal digits that a whole number may be written with. -/
def maxDecimalDigits : Nat := 4300

/-- What follows the whole part of a decimal number: a fraction, an exponent and
a mark for imaginary numbers, each of which may be missing. -/
def finishDecimal (whole rest : List Char) : Option (Literal × List Char) := do
  let (fraction, isFraction, rest) ← match rest with
    | '.' :: d :: more =>
      if d.isDigit then (takeDigits 10 (d :: more)).map fun (ds, r) => (ds, true, r)
      else some ([], true, d :: more)
    | ['.'] => some ([], true, [])
    | _ => some ([], false, rest)
  let (exponent, rest) ← takeExponent rest
  let bits := Decimal.nearestDecimal (digitsValue 10 (whole ++ fraction))
    (exponent.getD 0 - fraction.length)
  match rest with
  | c :: more =>
    if c = 'j' || c = 'J' then
      if numberMayEnd more then some (.complex 0 bits, more) else none
    else finish bits isFraction exponent rest
  | [] => finish bits isFraction exponent rest
where
  finish (bits : UInt64) (isFraction : Bool) (exponent : Option Int) (rest : List Char) :
      Option (Literal × List Char) :=
    if !numberMayEnd rest then none
    else if isFraction || exponent.isSome then some (.float bits, rest)
    else if whole.head? = some '0' && whole.any (· != '0') then none
    else if whole.head? != some '0' && maxDecimalDigits < whole.length then none
    else some (.int (digitsValue 10 whole), rest)

/-- A whole number after the mark of its base; an underscore may follow the mark. -/
def finishBased (base : Nat) (rest : List Char) : Option (Literal × List Char) := do
  let rest := match rest with
    | '_' :: more => more
    | _ => rest
  if !rest.head?.any (isDigitOf base) then failure
  let (digits, rest) ← takeDigits base rest
  if !numberMayEnd rest || rest.head?.any (·.isDigit) then none
  else some (.int (digitsValue base digits), rest)

/-- The number that a text starts with. The first character is a digit, or a
point with a digit after it. -/
def takeNumber (text : List Char) : Option (Literal × List Char) :=
  match text with
  | '0' :: c :: rest =>
    if c = 'x' || c = 'X' then finishBased 16 rest
    else if c = 'o' || c = 'O' then finishBased 8 rest
    else if c = 'b' || c = 'B' then finishBased 2 rest
    else decimal text
  | _ => decimal text
where
  decimal (text : List Char) : Option (Literal × List Char) := do
    let (whole, rest) ← takeDigits 10 text
    finishDecimal whole rest

end ProviderRegistry.Syntax
