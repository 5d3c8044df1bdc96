/-!
The exact value of a floating-point number, as a natural number times a power of two, and its
place on a grid of powers of ten.
-/

namespace Tariff.Decimal

open Float.Model (UnpackedFloat Format)

/-- A finite number: `mantissa * 2 ^ exponent`, with a sign that zero has too. -/
structure Binary where
  negative : Bool
  mantissa : Nat
  exponent : Int
deriving DecidableEq, Repr

/-- The value of a finite number; none for the infinities and NaN. -/
def Binary.ofFloat? (x : Float) : Option Binary :=
  match UnpackedFloat.unpack Format.binary64 x.toBits.toBitVec with
  | .finite s m e _ => some ⟨s == .negative, m, e⟩
  | .zero s => some ⟨s == .negative, 0, -1074⟩
  | .infinity _ => none
  | .notANumber => none

/-- How many steps of `10 ^ i` make up `m * 2 ^ q`, as numerator and denominator. -/
def onGrid (m : Nat) (q i : Int) : Nat × Nat :=
  (m * Nat.pow 2 q.toNat * Nat.pow 10 (-i).toNat, Nat.pow 2 (-q).toNat * Nat.pow 10 i.toNat)

/-- The quotient rounded to the nearest natural number, a half to the even one. -/
def roundDiv (num den : Nat) : Nat :=
  let q := num / den
  match compare (2 * (num % den)) den with
  | .lt => q
  | .gt => q + 1
  | .eq => if q % 2 = 0 then q else q + 1

end Tariff.Decimal
