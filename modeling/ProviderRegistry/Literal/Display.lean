import ProviderRegistry.Decimal.Shortest
import ProviderRegistry.Literal
import ProviderRegistry.Text.Quoted

/-!
# Literals as text

How a constant is shown. Floating-point numbers are shown with the fewest
digits that read back, positionally unless the number is too large or too
small for that.
-/

namespace ProviderRegistry.Literal

/-- The bits without the sign. -/
def unsigned (bits : UInt64) : UInt64 := bits &&& 0x7FFFFFFFFFFFFFFF

/-- Whether the sign bit is set. -/
def isNegative (bits : UInt64) : Bool := bits >>> 63 == 1

/-- An exponent, with a sign and at least two digits. -/
def exponentText (n : Int) : String :=
  (if n < 0 then "-" else "+") ++ (if n.natAbs < 10 then "0" else "") ++ toString n.natAbs

/-- Digits with the decimal point after the first `point` of them. With more than
sixteen places before the point, or four zeros or more after it, the number has an
exponent; a positional one that is whole ends in `.0` if `dotted`. -/
def decimalText (digits : String) (point : Int) (dotted : Bool) : String :=
  let zeros (n : Int) := String.ofList (List.replicate n.toNat '0')
  let count : Int := digits.length
  if point ≤ -4 || 16 < point then
    let rest := (digits.drop 1).toString
    (digits.take 1).toString ++ (if rest.isEmpty then "" else "." ++ rest) ++ "e" ++
      exponentText (point - 1)
  else if point ≤ 0 then "0." ++ zeros (-point) ++ digits
  else if count ≤ point then digits ++ zeros (point - count) ++ (if dotted then ".0" else "")
  else (digits.take point.toNat).toString ++ "." ++ (digits.drop point.toNat).toString

/-- A floating-point number without its sign. -/
def unsignedText (bits : UInt64) (dotted : Bool) : String :=
  let size := unsigned bits
  if size == 0 then (if dotted then "0.0" else "0")
  else if size == Decimal.infinityBits.toUInt64 then "inf"
  else if Decimal.infinityBits.toUInt64 < size then "nan"
  else
    let d := Decimal.shortest size
    let digits := toString d.digits
    decimalText digits (digits.length + d.exponent) dotted

/-- Whether the bits are those of no number. -/
def isNotANumber (bits : UInt64) : Bool := Decimal.infinityBits.toUInt64 < unsigned bits

/-- The sign of a floating-point number: nothing or a minus. -/
def signText (bits : UInt64) : String :=
  if isNegative bits && !isNotANumber bits then "-" else ""

/-- A floating-point number. -/
def floatText (bits : UInt64) : String := signText bits ++ unsignedText bits true

/-- A complex number: its imaginary part alone if the real part is a positive zero. -/
def complexText (re im : UInt64) : String :=
  let imaginary := unsignedText im false ++ "j"
  if re == 0 then signText im ++ imaginary
  else
    let sign := if (signText im).isEmpty then "+" else "-"
    "(" ++ signText re ++ unsignedText re false ++ sign ++ imaginary ++ ")"

/-- A constant as it is shown. -/
def display : Literal → String
  | none => "None"
  | ellipsis => "Ellipsis"
  | bool b => if b then "True" else "False"
  | int n => toString n
  | float bits => floatText bits
  | complex re im => complexText re im
  | str s => Text.quote s
  | bytes b => Text.quoteBytes b

end ProviderRegistry.Literal
