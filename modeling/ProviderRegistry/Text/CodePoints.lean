/-!
# Sets of code points

A set of characters is written as the ascending list of the points where
membership changes. A point is in the set when an odd number of boundaries
lie at or below it, and the number is found by halving.
-/

namespace ProviderRegistry.Text

/-- A set of code points, given by the points where membership changes. -/
structure CodePoints where
  /-- Ascending: in from the first, out from the second, and so on. -/
  boundaries : Array Nat

namespace CodePoints

/-- How many of the boundaries in `[low, high)` lie at or below `n`, counted with
the `low` ones before them. The range halves at each of the `steps`. -/
def rank (boundaries : Array Nat) (n : Nat) : (steps low high : Nat) → Nat
  | 0, low, _ => low
  | steps + 1, low, high =>
    if low < high then
      let middle := (low + high) / 2
      match boundaries[middle]? with
      | none => low
      | some boundary =>
        if boundary ≤ n then rank boundaries n steps (middle + 1) high
        else rank boundaries n steps low middle
    else low

/-- Whether `c` belongs to the set. The boundaries number fewer than `2 ^ 21`,
as many as there are code points. -/
def contains (set : CodePoints) (c : Char) : Bool :=
  rank set.boundaries c.toNat 22 0 set.boundaries.size % 2 == 1

end CodePoints

end ProviderRegistry.Text
