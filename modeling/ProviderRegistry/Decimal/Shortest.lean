import ProviderRegistry.Decimal.Nearest

/-!
# The shortest decimal

The decimal number with the fewest digits that reads back as a given
double-precision number, and of several the nearest one. For a number of
digits only the two neighbours on the grid of such decimals can qualify, so
that the grids are tried from the coarsest on.
-/

namespace ProviderRegistry.Decimal

/-- A decimal number, `digits * 10 ^ exponent`. -/
structure Number where
  digits : Nat
  exponent : Int
  deriving DecidableEq, Repr

/-- The size of the number that bits stand for, without its sign, as a quotient. -/
def magnitude (bits : UInt64) : Nat × Nat :=
  let field := (bits.toNat / twoTo 52) % twoTo 11
  let fraction := bits.toNat % twoTo 52
  let mantissa := if field = 0 then fraction else fraction + twoTo 52
  scaled mantissa 1 (-((max field 1 : Nat) + minExponent - 1))

/-- How many digits stand before the decimal point; below one, minus the number of
zeros after it. -/
def pointPosition (num den : Nat) : Int :=
  let guess : Int := (Nat.toDigits 10 num).length - (Nat.toDigits 10 den).length
  let (n, d) := if 0 ≤ guess then (num, den * tenTo guess.toNat)
    else (num * tenTo (-guess).toNat, den)
  if d ≤ n then guess + 1 else guess

/-- A decimal whose digits end in no superfluous zero from rounding up. -/
def carried (digits : Nat) (count : Nat) (exponent : Int) : Number :=
  if digits = tenTo count then ⟨1, exponent + count⟩ else ⟨digits, exponent⟩

/-- The nearest neighbour with `count` digits that reads back, if one does. -/
def neighbour? (bits : UInt64) (num den : Nat) (point : Int) (count : Nat) : Option Number :=
  let exponent := point - count
  let (n, d) := if 0 ≤ exponent then (num, den * tenTo exponent.toNat)
    else (num * tenTo (-exponent).toNat, den)
  let nearer := roundDiv n d
  let other := if nearer = n / d then n / d + 1 else n / d
  ([nearer, other].find? fun digits => nearestDecimal digits exponent == bits).map
    (carried · count exponent)

/-- How many digits are enough for every number. -/
def enoughDigits : Nat := 17

/-- The shortest decimal for the bits of a positive number. -/
def shortest (bits : UInt64) : Number :=
  let (num, den) := magnitude bits
  let point := pointPosition num den
  (((List.range enoughDigits).findSome? fun i => neighbour? bits num den point (i + 1))).getD ⟨0, 0⟩

end ProviderRegistry.Decimal
