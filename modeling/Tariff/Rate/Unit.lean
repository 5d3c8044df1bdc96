import Tariff.Formula.Variable
import Tariff.Text.Blank
import Tariff.Text.Case

/-!
Units of quantity. A unit of mass counts as weight and any other unit as quantity.
-/

namespace Tariff.Rate

open Tariff.Text

def weightUnits : List String := [
  "kg", "kilo", "kilogram", "g", "gm", "gram", "mg", "lb", "pound", "oz", "ounce", "ton", "tonne",
  "t", "mt", "metric ton", "cwt", "kg cmc", "clean kg", "kg tot sug", "gross kg"]

def quantityUnits : List String := [
  "each", "ea", "unit", "piece", "pc", "pcs", "no", "number", "item", "article", "pair", "pr",
  "prs", "dozen", "doz", "dz", "dozen pair", "doz pr", "gross", "set", "head", "thousand",
  "liter", "litre", "l", "ml", "proof liter", "pf liter", "pfl", "gal", "gallon", "proof gallon",
  "m3", "cubic meter", "bbl", "barrel",
  "m", "meter", "metre", "cm", "mm", "km", "ft", "foot", "linear meter",
  "m2", "sq m", "square meter", "sq ft", "square foot",
  "carat", "kwh", "mwh", "gbq", "component"]

def unitVariable? (unit : String) : Option Variable :=
  if weightUnits.contains unit then some .weight
  else if quantityUnits.contains unit then some .quantity
  else none

/-- A unit as the lists spell it: lower case, no stops or commas, plain digits for superscripts,
single spaces. -/
def canonicalUnit (token : String) : String :=
  let plain (c : Char) : Char :=
    if c == '.' || c == ',' then ' ' else if c == '²' then '2' else if c == '³' then '3' else c
  String.ofList (squeeze ((lower token.toList).map plain))

def dropEnding? (ending : String) (s : String) : Option String :=
  (ending.toList.reverse.isPrefixOf? s.toList.reverse).map fun r => String.ofList r.reverse

def resolveUnit? (token : String) : Option Variable :=
  let unit := canonicalUnit token
  unitVariable? unit
    <|> (if unit = "feet" then some .quantity else none)
    <|> ((dropEnding? "es" unit).bind unitVariable?)
    <|> ((dropEnding? "s" unit).bind unitVariable?)

/-- The variable that an entry's unit of quantity stands for; `X` means no unit. -/
def resolveHint? (hint : Option String) : Option Variable := do
  let h := String.ofList (trim (← hint).toList)
  if h = "" ∨ sameIgnoringAsciiCase h "x" then none else resolveUnit? h

/-- The variable of a unit word; the hint decides for a word that is no unit. -/
def resolveWord? (token : String) (hint : Option String) : Option Variable :=
  resolveUnit? token <|> resolveHint? hint

/-- The variable where a bare number stands for the unit: what the hint says, else quantity. -/
def numericUnit (hint : Option String) : Variable := (resolveHint? hint).getD .quantity

end Tariff.Rate
