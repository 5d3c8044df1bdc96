import Tariff.Rate.Normal
import Tariff.Rate.Numeral

/-!
Percentages: `5%`, `5 percent ad valorem`, `(5%)`, and the percentage in a compound rate, which may
say what it is levied on. Each recogniser takes the whole text and gives the rate as a fraction.
-/

namespace Tariff.Rate

open Tariff.Text

/-- The text behind words that each follow at least one blank. -/
def phrase : List String → List Char → Option (List Char)
  | [], text => some text
  | w :: ws, text => do phrase ws (← literal w (← someBlanks text))

def skipPhrase (ws : List String) (text : List Char) : List Char := (phrase ws text).getD text

def percentMark (text : List Char) : Option (List Char) :=
  literal "%" text <|> literal "percent" text

def percentage? (numeral : List Char) : Option Float := (numeralValue? numeral).map (· / 100)

/-- A numeral, a percent mark and the words `ad valorem`, which may be missing; with what
follows. -/
def percentHead (text : List Char) : Option (List Char × List Char) := do
  let (numeral, rest) ← takeNumeral text
  let rest ← percentMark (trimStart rest)
  some (numeral, skipPhrase ["ad", "valorem"] rest)

def explicitPercent? (text : List Char) : Option Float := do
  let (numeral, rest) ← percentHead text
  if rest.isEmpty then percentage? numeral else none

/-- A bare percentage, between parentheses or not, of which either may be missing. -/
def simplePercent? (text : List Char) : Option Float := do
  let (numeral, rest) ← takeNumeral (trimStart (skipLiteral "(" text))
  let rest ← literal "%" (trimStart rest)
  if (skipLiteral ")" (trimStart rest)).isEmpty then percentage? numeral else none

/-- What the percentage of a compound rate may be levied on. -/
def wholeArticle : List (List String) :=
  ["set", "article", "item"].map (["on", "the", "entire"] ++ [·])

def percentComponent? (text : List Char) : Option Float := do
  let (numeral, rest) ← percentHead text
  let rest := (wholeArticle.findSome? (phrase · rest)).getD rest
  if rest.isEmpty then percentage? numeral else none

end Tariff.Rate
