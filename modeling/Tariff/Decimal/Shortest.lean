import Tariff.Decimal.Binary

/-!
The shortest decimal that reads back. The reals that round to a floating-point number form an
interval around it; on each grid of powers of ten, from coarse to fine, the two neighbours of the
number are tested, and the first grid with one inside the interval gives the digits.
-/

namespace Tariff.Decimal

/-- A non-negative decimal, `digits * 10 ^ exponent`. -/
structure Scaled where
  digits : Nat
  exponent : Int
deriving DecidableEq, Repr

/-- Which of two equally near decimals is taken. -/
inductive Tie where
  | toEven
  | up
deriving DecidableEq, Repr

/-- The lower end of the interval of `m * 2 ^ q`, in quarters of `2 ^ q`. Below a power of two the
neighbour is half as far away, except at the least exponent. -/
def lowerQuarters (m : Nat) (q : Int) : Nat :=
  if m = Nat.pow 2 52 ∧ -1074 < q then 4 * m - 1 else 4 * m - 2

/-- Whether `d * 10 ^ i` rounds to `m * 2 ^ q`: it lies in the interval, whose ends belong to it
when `m` is even. -/
def readsBack (m : Nat) (q i : Int) (d : Nat) : Bool :=
  let (lo, den) := onGrid (lowerQuarters m q) (q - 2) i
  let (hi, _) := onGrid (4 * m + 2) (q - 2) i
  let at_ := d * den
  if m % 2 = 0 then lo ≤ at_ && at_ ≤ hi else lo < at_ && at_ < hi

/-- The nearest decimal on the grid of `10 ^ i` that reads back. -/
def nearestOn (tie : Tie) (m : Nat) (q i : Int) : Option Nat :=
  let (num, den) := onGrid m q i
  let s := num / den
  match readsBack m q i s, readsBack m q i (s + 1) with
  | false, false => none
  | true, false => some s
  | false, true => some (s + 1)
  | true, true =>
    match compare (2 * num) ((2 * s + 1) * den), tie with
    | .lt, _ => some s
    | .gt, _ => some (s + 1)
    | .eq, .up => some (s + 1)
    | .eq, .toEven => some (if s % 2 = 0 then s else s + 1)

/-- The least `k` with `m * 2 ^ q < 10 ^ k`, for positive `m`: the binary logarithm gives it up to
two steps. -/
def scale (m : Nat) (q : Int) : Int :=
  let k := (m.log2 + q) * 30103 / 100000
  let below (k : Int) : Bool := (onGrid m q k).1 < (onGrid m q k).2
  if below k then k else if below (k + 1) then k + 1 else k + 2

/-- All digits of `m * 2 ^ q`. -/
def exact (m : Nat) (q : Int) : Scaled :=
  if 0 ≤ q then ⟨m * Nat.pow 2 q.toNat, 0⟩ else ⟨m * Nat.pow 5 (-q).toNat, q⟩

/-- The shortest decimal that reads back as `m * 2 ^ q`, the nearest of several. -/
def shortest (tie : Tie) (m : Nat) (q : Int) : Scaled :=
  let k := scale m q
  let on (n : Nat) : Option Scaled := (nearestOn tie m q (k - n)).map (⟨·, k - n⟩)
  ((List.range 18).findSome? on).getD (exact m q)

end Tariff.Decimal
