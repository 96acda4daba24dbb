/-!
# The nearest binary number

A decimal number as the nearest double-precision number, in exact arithmetic.
The number is a quotient of two naturals; it is scaled by a power of two until
its whole part has 53 bits, or as many as the smallest exponent leaves, and
the remainder decides the rounding, a half going to the even neighbour.
-/

namespace ProviderRegistry.Decimal

/-- A quotient rounded to the nearest whole number, a half to the even one. -/
def roundDiv (num den : Nat) : Nat :=
  let whole := num / den
  let rest := num % den
  if den < 2 * rest || (2 * rest = den && whole % 2 = 1) then whole + 1 else whole

/-- A power of two. -/
def twoTo (n : Nat) : Nat := Nat.pow 2 n

/-- A power of ten. -/
def tenTo (n : Nat) : Nat := Nat.pow 10 n

/-- The quotient `num / den` divided by `2 ^ exponent`, as a quotient. -/
def scaled (num den : Nat) (exponent : Int) : Nat × Nat :=
  if 0 ≤ exponent then (num, den * twoTo exponent.toNat) else (num * twoTo (-exponent).toNat, den)

/-- The bits of infinity. -/
def infinityBits : Nat := 0x7FF0000000000000

/-- The smallest exponent of a whole number of 53 bits. -/
def minExponent : Int := -1074

/-- The bits of the number nearest to `num / den`. -/
def nearestBits (num den : Nat) : UInt64 :=
  if num = 0 then 0
  else
    let guess : Int := (num.log2 : Int) - den.log2 - 52
    let wholeAt (e : Int) := let (n, d) := scaled num den e; n / d
    let fitted : Int := if wholeAt guess < twoTo 52 then guess - 1 else guess
    let exponent := max fitted minExponent
    let (n, d) := scaled num den exponent
    let mantissa := roundDiv n d
    let bits := (exponent - minExponent).toNat * twoTo 52 + mantissa
    (min bits infinityBits).toUInt64

/-- The bits of the number nearest to `digits * 10 ^ exponent`. Exponents beyond
those of any number stand for infinity and zero. -/
def nearestDecimal (digits : Nat) (exponent : Int) : UInt64 :=
  let magnitude := (Nat.toDigits 10 digits).length + exponent
  if digits = 0 then 0
  else if 400 < magnitude then infinityBits.toUInt64
  else if magnitude < -400 then 0
  else if 0 ≤ exponent then nearestBits (digits * tenTo exponent.toNat) 1
  else nearestBits digits (tenTo (-exponent).toNat)

end ProviderRegistry.Decimal
