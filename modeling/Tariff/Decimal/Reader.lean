import Tariff.Text.Digit

/-!
Reading a decimal. The result is the floating-point number nearest to what is written.
-/

namespace Tariff.Decimal

open Tariff.Text

def natOfDigits (ds : List Char) : Nat := ds.foldl (fun n c => 10 * n + (c.toNat - '0'.toNat)) 0

/-- `m * 10 ^ e`, rounded to nearest. -/
def ofScaled (m : Nat) (e : Int) : Float := Float.ofScientific m (e < 0) e.natAbs

/-- A sign that may be missing; true for a minus. -/
def takeSign : List Char → Bool × List Char
  | '-' :: s => (true, s)
  | '+' :: s => (false, s)
  | s => (false, s)

/-- An exponent that may be missing, up to the end of the text. -/
def readExponent? : List Char → Option Int
  | [] => some 0
  | c :: s =>
    if c == 'e' || c == 'E' then
      let (negative, ds) := takeSign s
      if ds.isEmpty || !ds.all isAsciiDigit then none
      else some (if negative then -(natOfDigits ds) else natOfDigits ds)
    else none

/-- A decimal without sign: digits, with a point before, between or behind them, and an
exponent. -/
def readUnsigned? (s : List Char) : Option Float := do
  let whole := s.takeWhile isAsciiDigit
  let rest := s.dropWhile isAsciiDigit
  let (fraction, rest) := match rest with
    | '.' :: r => (r.takeWhile isAsciiDigit, r.dropWhile isAsciiDigit)
    | _ => ([], rest)
  if (whole ++ fraction).isEmpty then none
  let e ← readExponent? rest
  some (ofScaled (natOfDigits (whole ++ fraction)) (e - fraction.length))

/-- A number in text: a sign, then a decimal or a word for an infinity or NaN. -/
def read? (s : List Char) : Option Float :=
  let (negative, body) := takeSign s
  let word := String.ofList (body.map Char.toLower)
  let magnitude :=
    if word = "inf" ∨ word = "infinity" then some (1 / 0)
    else if word = "nan" then some (0 / 0)
    else readUnsigned? body
  magnitude.map fun x => if negative then -x else x

end Tariff.Decimal
