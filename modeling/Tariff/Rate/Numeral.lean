import Tariff.Decimal.Reader
import Tariff.Text.Runs

/-!
The numerals of rate texts: digits with or without commas between groups of three, a decimal part,
or a decimal part alone. A numeral may hold digits of any script, but only one in ASCII digits has
a value.
-/

namespace Tariff.Rate

open Tariff.Text

def isNumeralChar (c : Char) : Bool := isDecimalDigit c || c == ',' || c == '.'

def isDigits (s : List Char) : Bool := !s.isEmpty && s.all isDecimalDigit

/-- Digits, or one to three of them and then groups of three behind commas. -/
def isWhole (s : List Char) : Bool :=
  match splitAt (· == ',') s with
  | [ds] => isDigits ds
  | first :: groups =>
    isDigits first && first.length ≤ 3 && groups.all fun g => isDigits g && g.length == 3
  | [] => false

def isNumeral (s : List Char) : Bool :=
  match splitAt (· == '.') s with
  | [whole] => isWhole whole
  | [whole, fraction] => (whole.isEmpty || isWhole whole) && isDigits fraction
  | _ => false

/-- The value of a numeral, unless it has digits of another script or is too large. -/
def numeralValue? (s : List Char) : Option Float :=
  (Decimal.read? (s.filter (· != ','))).filter (·.isFinite)

/-- The numeral at the start of a text and what follows it. No numeral ends before a character
that could belong to it. -/
def takeNumeral (text : List Char) : Option (List Char × List Char) :=
  let numeral := text.takeWhile isNumeralChar
  if isNumeral numeral then some (numeral, text.dropWhile isNumeralChar) else none

end Tariff.Rate
