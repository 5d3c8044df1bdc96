import Tariff.Decimal.Shortest

/-!
How the digits of a number are laid out as text.
-/

namespace Tariff.Decimal

/-- The decisions of one number format. -/
structure Layout where
  /-- which of two equally near shortest decimals is taken -/
  tie : Tie
  /-- the exponents of the leading digit, from the first to before the second, at which the point
  is written in place; none when it always is -/
  inPlace : Option (Int × Int)
  /-- whether a whole number ends in `.0` -/
  wholePoint : Bool

/-- Every digit in place, and no point on whole numbers. -/
def plain : Layout := ⟨.up, none, false⟩

def digitChars (n : Nat) : List Char := Nat.toDigits 10 n

/-- The digits with the point `places` digits from the right, zeros put in front as needed. -/
def pointed (places : Nat) (n : Nat) : List Char :=
  let ds := digitChars n
  let ds := List.replicate (places + 1 - ds.length) '0' ++ ds
  let whole := ds.length - places
  ds.take whole ++ (if places = 0 then [] else '.' :: ds.drop whole)

def Layout.positional (l : Layout) (d : Scaled) : List Char :=
  if d.exponent < 0 then pointed (-d.exponent).toNat d.digits
  else
    digitChars (d.digits * Nat.pow 10 d.exponent.toNat)
      ++ (if l.wholePoint then ".0".toList else [])

/-- One digit, a point and the others, and a power of ten, which always has a sign. -/
def scientific (d : Scaled) : List Char :=
  let ds := digitChars d.digits
  let e := d.exponent + ds.length - 1
  ds.take 1 ++ (if ds.length = 1 then [] else '.' :: ds.drop 1)
    ++ 'e' :: (if 0 ≤ e then '+' else '-') :: digitChars e.natAbs

def Layout.digits (l : Layout) (d : Scaled) : List Char :=
  let lead := d.exponent + (digitChars d.digits).length - 1
  match l.inPlace with
  | none => l.positional d
  | some (first, last) =>
    if d.digits = 0 ∨ (first ≤ lead ∧ lead < last) then l.positional d else scientific d

/-- The text of a finite number, the shortest that reads back. -/
def Layout.finite (l : Layout) (b : Binary) : List Char :=
  (if b.negative then ['-'] else []) ++
    l.digits (if b.mantissa = 0 then ⟨0, 0⟩ else shortest l.tie b.mantissa b.exponent)

def Layout.render (l : Layout) (x : Float) : String :=
  match Binary.ofFloat? x with
  | some b => String.ofList (l.finite b)
  | none => if x.isNaN then "NaN" else if x < 0 then "-inf" else "inf"

/-- A finite value with exactly `places` digits behind the point, a half rounded to even. -/
def Binary.fixed (places : Nat) (b : Binary) : List Char :=
  let n := roundDiv (b.mantissa * Nat.pow 2 b.exponent.toNat * Nat.pow 10 places)
    (Nat.pow 2 (-b.exponent).toNat)
  (if b.negative then ['-'] else []) ++ pointed places n

def fixed (places : Nat) (x : Float) : String :=
  match Binary.ofFloat? x with
  | some b => String.ofList (b.fixed places)
  | none => plain.render x

end Tariff.Decimal
