import Tariff.Json.Basic

/-!
Numbers of JSON texts. Digits are taken into a significand of 64 bits as long as they fit; the
first that does not and all behind it only move the exponent. A number with a point or an exponent
is the significand, rounded, times or divided by a power of ten, rounded again; so it need not be
the number nearest to what is written.
-/

namespace Tariff.Json

open Tariff.Decimal (ofScaled natOfDigits)
open Tariff.Text (isAsciiDigit)

structure Numeral where
  negative : Bool
  whole : List Char
  /-- the digits behind a point, if there is one -/
  fraction : Option (List Char)
  /-- the sign and digits of an exponent, if there is one -/
  exponent : Option (Bool × List Char)
deriving DecidableEq, Repr

/-- Takes digits into a significand as long as it stays below `2 ^ 64`; also the number of digits
left. -/
def absorb (n : Nat) : List Char → Nat × Nat
  | [] => (n, 0)
  | d :: ds =>
    let n' := 10 * n + (d.toNat - '0'.toNat)
    if n' < Nat.pow 2 64 then absorb n' ds else (n, (d :: ds).length)

/-- A number divided by `10 ^ k`, by at most `10 ^ 308` at a time. -/
def scaleDown (x : Float) (k : Nat) : Float :=
  if k ≤ 308 then x / ofScaled 1 k
  else if x == 0 then x
  else scaleDown (x / ofScaled 1 308) (k - 308)
termination_by k

/-- A significand times a power of ten; none when it is too large. -/
def scaled? (n : Nat) (e : Int) : Option Float :=
  let x := ofScaled n 0
  if e < 0 then some (scaleDown x e.natAbs)
  else if e ≤ 308 then
    let y := x * ofScaled 1 e
    if y.isFinite then some y else none
  else if x == 0 then some x
  else none

/-- The number that a numeral is read as; none when it is too large. -/
def Numeral.value? (l : Numeral) : Option Number :=
  let signed (x : Float) : Number := .float (if l.negative then -x else x)
  let (n, left) := absorb 0 l.whole
  match l.fraction, l.exponent with
  | none, none =>
    if 0 < left then (scaled? n left).map signed
    else if !l.negative then some (.integer n)
    else if n = 0 ∨ Nat.pow 2 63 < n then some (signed (ofScaled n 0))
    else some (.integer (-n))
  | fraction, exponent =>
    let fraction := fraction.getD []
    let (n, unread) := absorb n fraction
    let e : Int := match exponent with
      | none => 0
      | some (true, ds) => -(natOfDigits ds : Int)
      | some (false, ds) => natOfDigits ds
    (scaled? n (left - (fraction.length - unread : Nat) + e)).map signed

/-- A numeral at the start of a text, and how many characters it takes. -/
def takeNumeral (text : List Char) : Option (Numeral × Nat) := do
  let (negative, rest) := match text with
    | '-' :: r => (true, r)
    | _ => (false, text)
  let whole := if rest.head? == some '0' then ['0'] else rest.takeWhile isAsciiDigit
  if whole.isEmpty then none
  let rest := rest.drop whole.length
  let (fraction, rest) := match rest with
    | '.' :: r =>
      let ds := r.takeWhile isAsciiDigit
      if ds.isEmpty then (none, rest) else (some ds, r.drop ds.length)
    | _ => (none, rest)
  let (exponent, rest) := match rest with
    | c :: r =>
      if c == 'e' || c == 'E' then
        let (minus, digits) := Decimal.takeSign r
        let ds := digits.takeWhile isAsciiDigit
        if ds.isEmpty then (none, rest) else (some (minus, ds), digits.drop ds.length)
      else (none, rest)
    | [] => (none, rest)
  some (⟨negative, whole, fraction, exponent⟩, text.length - rest.length)

end Tariff.Json
