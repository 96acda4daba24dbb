/-!
# Literals

The constants that can stand as arguments of a marker. Floating-point numbers
are kept as the bits of their binary form, so that two literals are equal
exactly when they are written alike.
-/

namespace ProviderRegistry

/-- A constant. -/
inductive Literal where
  | none
  | ellipsis
  | bool (b : Bool)
  | int (n : Int)
  | float (bits : UInt64)
  | complex (re im : UInt64)
  | str (s : String)
  | bytes (b : List UInt8)
  deriving DecidableEq, Repr

namespace Literal

/-- Whether the bits are those of a zero, of either sign. -/
def isZeroBits (bits : UInt64) : Bool := bits &&& 0x7FFFFFFFFFFFFFFF == 0

/-- Whether a constant counts as true: zeros and empty texts do not. -/
def truthy : Literal → Bool
  | none => false
  | ellipsis => true
  | bool b => b
  | int n => n != 0
  | float bits => !isZeroBits bits
  | complex re im => !(isZeroBits re && isZeroBits im)
  | str s => !s.isEmpty
  | bytes b => !b.isEmpty

/-- The name of the class that a constant is an instance of. -/
def typeName : Literal → String
  | none => "NoneType"
  | ellipsis => "ellipsis"
  | bool _ => "bool"
  | int _ => "int"
  | float _ => "float"
  | complex _ _ => "complex"
  | str _ => "str"
  | bytes _ => "bytes"

end Literal

end ProviderRegistry
