import Tariff.Rate.Specific

/-!
The grammar of rate texts in normal form. Its rules are tried in order: free, explicit percentage,
bare percentage, compound, specific, range.
-/

namespace Tariff.Rate

open Tariff.Text

/-- A rate of nothing. A text that begins with `free` counts, whatever follows. -/
def isFree (text : String) : Bool :=
  ["none", "0", "0%"].contains text || (literal "free" text.toList).isSome

/-- Parts of a composite article. A sum over a text that names one has a rate for each part and no
common value. -/
def partWords : List String := [
  "case", "cases", "strap", "straps", "band", "bands", "bracelet", "bracelets", "battery",
  "batteries", "movement", "movements", "jewel", "jewels"]

def leadContent : Pattern Unit := fun before text => do
  let rest ← wholeWord "content" (some ' ') (← someBlanks (← wordStart "lead" before text))
  some ((), rest)

def namesPart (text : List Char) : Bool :=
  (words text).any (fun w => partWords.contains (String.ofList w))
    || !(leadContent.collect text).isEmpty

inductive Component where
  | percent (rate : Float)
  | specific (term : Term)

def component? (hint : Option String) (text : List Char) : Option Component :=
  match percentComponent? text with
  | some rate => some (.percent rate)
  | none => (specific? (String.ofList text) hint).map .specific

def Component.rate? : Component → Option Float
  | percent rate => some rate
  | specific _ => none

def Component.term? : Component → Option Term
  | percent _ => none
  | specific term => some term

/-- Two or three parts joined by plus signs, one of them a percentage. -/
def compound? (text : String) (hint : Option String) : Option Shape := do
  let parts := (splitAt (· == '+') text.toList).map trim
  if namesPart text.toList || parts.length < 2 || 3 < parts.length then none
  else
    let cs ← parts.mapM (component? hint)
    match cs.filterMap Component.rate? with
    | [rate] => some (.compound rate (cs.filterMap Component.term?))
    | _ => none

/-- Two percentages, the lower one first in the result. -/
def range? (text : String) : Option Shape := do
  let (low, rest) ← takeNumeral text.toList
  let rest := trimStart (skipLiteral "%" (trimStart rest))
  let rest ← literal "-" rest <|> literal "to" rest
  let (high, rest) ← takeNumeral (trimStart rest)
  if trimStart rest = ['%'] then
    let a ← percentage? low
    let b ← percentage? high
    some (if b < a then .range b a else .range a b)
  else none

/-- What a text in normal form says, by the first rule that knows it. -/
def parse? (text : String) (hint : Option String) : Option Shape :=
  (if isFree text then some .free else none)
    <|> (explicitPercent? text.toList).map .adValorem
    <|> (simplePercent? text.toList).map .adValorem
    <|> compound? text hint
    <|> (specific? text hint).map .specific
    <|> range? text

end Tariff.Rate
