import ProviderRegistry.Element

/-!
# Data

Values whose shape is not yet known, as they come from outside: the input of
every check that turns data into the types of this library. A check reports
every rule that its input breaks, not only the first.
-/

namespace ProviderRegistry

/-- A value without a shape. A number is `mantissa / 10 ^ exponent`. -/
inductive Datum where
  | null
  | bool (b : Bool)
  | number (mantissa : Int) (exponent : Nat)
  | str (s : String)
  | list (items : List Datum)
  | record (fields : List (String × Datum))
  /-- The argument of a marker, which has its shape already. -/
  | argument (value : MarkerValue)
  deriving Inhabited

namespace Datum

/-- The field of a record with the given name. -/
def field? (d : Datum) (name : String) : Option Datum :=
  match d with
  | record fields => fields.lookup name
  | _ => none

/-- The whole number that a number stands for, if it is whole. -/
def wholeNumber? (mantissa : Int) (exponent : Nat) : Option Int :=
  let unit : Int := (Nat.pow 10 exponent : Nat)
  if mantissa % unit = 0 then some (mantissa / unit) else none

end Datum

/-- A rule that a value breaks, in the words that checks report. -/
inductive Violation.Rule where
  | missing
  | stringType
  | boolType
  | boolSyntax
  | intType
  | intSyntax
  | wholeNumber
  | listType
  | setType
  | recordType
  | elementType
  | pathType
  | enumMember
  deriving DecidableEq, Repr

/-- A broken rule and the place of the value that breaks it. -/
structure Violation where
  location : List String
  rule : Violation.Rule
  deriving DecidableEq, Repr

namespace Violation

/-- The word for a rule. -/
def Rule.label : Rule → String
  | missing => "missing"
  | stringType => "string_type"
  | boolType => "bool_type"
  | boolSyntax => "bool_parsing"
  | intType => "int_type"
  | intSyntax => "int_parsing"
  | wholeNumber => "int_from_float"
  | listType => "list_type"
  | setType => "frozen_set_type"
  | recordType => "dict_type"
  | elementType => "model_type"
  | pathType => "path_type"
  | enumMember => "enum"

/-- The place as a dotted text and the rule as a word. -/
def describe (v : Violation) : String × String := (".".intercalate v.location, v.rule.label)

/-- Descriptions in order of place, then of rule. -/
def describeAll (violations : List Violation) : List (String × String) :=
  (violations.map describe).mergeSort fun a b =>
    decide (a.1 < b.1) || (a.1 == b.1 && decide (a.2 ≤ b.2))

end Violation

/-- The outcome of a check: a value, or every rule that is broken. -/
abbrev Checked (α : Type) := Except (List Violation) α

namespace Checked

/-- Both outcomes together; the violations of both are reported. -/
def both (a : Checked α) (b : Checked β) : Checked (α × β) :=
  match a, b with
  | .ok x, .ok y => .ok (x, y)
  | .error e, .ok _ => .error e
  | .ok _, .error f => .error f
  | .error e, .error f => .error (e ++ f)

/-- The outcomes of several checks; the violations of all are reported. -/
def all : List (Checked α) → Checked (List α)
  | [] => .ok []
  | a :: rest => (both a (all rest)).map fun (x, xs) => x :: xs

end Checked

namespace Datum

/-- A refusal. -/
def refuse (location : List String) (rule : Violation.Rule) : Checked α := .error [⟨location, rule⟩]

/-- A text, and nothing that could be turned into one. -/
def checkString (location : List String) : Datum → Checked String
  | str s => .ok s
  | _ => refuse location .stringType

/-- The words for truth values, case aside. -/
def boolOfWord? (word : String) : Option Bool :=
  let word := word.toLower
  if ["1", "on", "t", "true", "y", "yes"].contains word then some true
  else if ["0", "off", "f", "false", "n", "no"].contains word then some false
  else none

/-- A truth value, as itself, as zero or one, or as a word. -/
def checkBool (location : List String) : Datum → Checked Bool
  | bool b => .ok b
  | number mantissa exponent =>
    match wholeNumber? mantissa exponent with
    | some 0 => .ok false
    | some 1 => .ok true
    | some _ => refuse location .boolSyntax
    | none => refuse location .boolType
  | str s => match boolOfWord? s with
    | some b => .ok b
    | none => refuse location .boolSyntax
  | _ => refuse location .boolType

/-- The whole number that a text spells: blanks around it, a sign, digits with
single underscores between them, and a fraction of zeros. -/
def intOfText? (text : String) : Option Int :=
  let body := text.trimAscii.toString.toList
  let (sign, digits) := match body with
    | '-' :: rest => ((-1 : Int), rest)
    | '+' :: rest => (1, rest)
    | rest => (1, rest)
  let whole := digits.takeWhile (· != '.')
  let fraction := digits.dropWhile (· != '.')
  let wellFormed := whole.head?.any (·.isDigit) && whole.getLast?.any (·.isDigit) &&
    whole.all (fun c => c.isDigit || c == '_') && fraction.tail.all (· == '0') &&
    (fraction.isEmpty || fraction.length ≥ 2) &&
    !(String.ofList whole).contains "__"
  if wellFormed then
    some (sign * (whole.filter (·.isDigit)).foldl (fun n c => n * 10 + (c.toNat - 48 : Nat)) 0)
  else none

/-- A whole number, as itself, as a truth value or as a text. -/
def checkInt (location : List String) : Datum → Checked Int
  | number mantissa exponent =>
    match wholeNumber? mantissa exponent with
    | some n => .ok n
    | none => refuse location .wholeNumber
  | bool b => .ok (if b then 1 else 0)
  | str s => match intOfText? s with
    | some n => .ok n
    | none => refuse location .intSyntax
  | _ => refuse location .intType

/-- A list whose items pass a check of their own. -/
def checkList (location : List String) (item : List String → Datum → Checked α) :
    Datum → Checked (List α)
  | list items => Checked.all (items.zipIdx.map fun (d, i) => item (location ++ [toString i]) d)
  | _ => refuse location .listType

/-- Null, or a value that passes a check. -/
def checkOptional (check : Datum → Checked α) : Datum → Checked (Option α)
  | null => .ok none
  | d => (check d).map some

/-- A field that must be there. -/
def required (record : Datum) (name : String) (check : List String → Datum → Checked α) :
    Checked α :=
  match record.field? name with
  | none => refuse [name] .missing
  | some d => check [name] d

/-- A field that may be left out. -/
def optional (record : Datum) (name : String) (default : α)
    (check : List String → Datum → Checked α) : Checked α :=
  match record.field? name with
  | none => .ok default
  | some d => check [name] d

end Datum

end ProviderRegistry
