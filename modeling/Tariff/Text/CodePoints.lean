/-!
Sets of characters given by ranges of code points.
-/

namespace Tariff.Text

/-- Inclusive ranges of code points, in increasing order. -/
abbrev CodePoints := List (Nat × Nat)

/-- Whether a code point lies in one of the ranges; the search ends at the first range beyond it. -/
def CodePoints.covers : CodePoints → Nat → Bool
  | [], _ => false
  | (lo, hi) :: rest, n => if n < lo then false else n ≤ hi || CodePoints.covers rest n

def CodePoints.contains (t : CodePoints) (c : Char) : Bool := t.covers c.toNat

end Tariff.Text
