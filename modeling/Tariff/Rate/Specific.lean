import Tariff.Rate.Percent
import Tariff.Rate.Shape
import Tariff.Rate.Unit

/-!
Specific rates: an amount of money for each unit, as in `$1.50 each`, `25¢/kg` or `$1.34/1000`.
-/

namespace Tariff.Rate

open Tariff.Text

/-- An amount as written: its numeral and whether it counts cents. -/
structure Price where
  numeral : List Char
  cents : Bool

def Price.dollars? (p : Price) : Option Float :=
  (numeralValue? p.numeral).map fun x => if p.cents then x / 100 else x

/-- The marks that follow an amount in cents; a longer one is tried before a shorter. -/
def centMarks : List String := ["¢", "cents", "cent", "c"]

/-- The ways to read an amount at the start of a text, each with the character it ends in and what
follows: a dollar or cent sign that may be missing, a numeral, and a mark for cents that may be
missing. -/
def prices (text : List Char) : List (Price × Option Char × List Char) :=
  let (sign, rest) : Bool × List Char := match text with
    | '$' :: rest => (false, rest)
    | '¢' :: rest => (true, rest)
    | _ => (false, text)
  match takeNumeral (trimStart rest) with
  | none => []
  | some (numeral, rest) =>
    let marked := centMarks.filterMap fun m =>
      (literal m (trimStart rest)).map fun r => (⟨numeral, true⟩, m.toList.getLast?, r)
    marked ++ [(⟨numeral, sign⟩, numeral.getLast?, rest)]

def eachWords : List String := [
  "each", "unit", "units", "piece", "pieces", "pair", "pairs", "dozen", "dozens", "gross", "set",
  "sets", "article", "articles", "item", "items", "head"]

/-- An amount and an each-word, as in `$1.50 each`. -/
def readEach (text : List Char) : Option (Price × String) :=
  (prices text).findSome? fun (price, _, rest) =>
    let word := String.ofList (trimStart rest)
    if eachWords.contains word then some (price, word) else none

/-- A slash or the word `per`, blanks around it; `before` is the character in front of the
text. -/
def separator (before : Option Char) (text : List Char) : Option (List Char) :=
  let rest := trimStart text
  let before := if text.head?.any isBlank then text.head? else before
  (literal "/" rest <|> wholeWord "per" before rest).map trimStart

def isUnitStart (c : Char) : Bool := 'a' ≤ c && c ≤ 'z'

def isUnitChar (c : Char) : Bool :=
  isUnitStart c || isAsciiDigit c || c == '²' || c == '³' || c == '.'

/-- The beginnings of a text that are a unit word, the longest first, each with what follows. -/
def unitWords (text : List Char) : List (List Char × List Char) :=
  if text.head?.any isUnitStart then
    let n := (text.takeWhile isUnitChar).length
    (List.range n).map fun k => (text.take (n - k), text.drop (n - k))
  else []

/-- The beginnings of a text that are one or two unit words with one blank between, in the order
in which they are tried. -/
def unitNames (text : List Char) : List (List Char × List Char) :=
  (unitWords text).flatMap fun (word, rest) =>
    let two := match rest with
      | c :: more =>
        if isBlank c then (unitWords more).map fun (w, r) => (word ++ c :: w, r) else []
      | [] => []
    two ++ [(word, rest)]

/-- The parts of a rate for so many units: the count of units, their name, and a second
divisor. -/
structure PerUnit where
  price : Price
  count : Option (List Char)
  unit : Option String
  divisor : Option (List Char)

/-- A second divisor up to the end of the text, or nothing. -/
def readDivisor (before : Option Char) (text : List Char) : Option (Option (List Char)) :=
  if text.isEmpty then some none
  else do
    let (numeral, rest) ← takeNumeral (← separator before text)
    if rest.isEmpty then some (some numeral) else none

/-- What follows the separator: a count, a unit or both, and a second divisor. -/
def readUnits (price : Price) (text : List Char) : Option PerUnit :=
  match takeNumeral text with
  | some (count, rest) =>
    let before := if rest.head?.any isBlank then rest.head? else count.getLast?
    let rest := trimStart rest
    (named (some count) rest) <|>
      (readDivisor before rest).map (⟨price, some count, none, ·⟩)
  | none => named none text
where
  named (count : Option (List Char)) (text : List Char) : Option PerUnit :=
    (unitNames text).findSome? fun (unit, rest) =>
      (readDivisor unit.getLast? rest).map (⟨price, count, some (String.ofList unit), ·⟩)

/-- An amount for so many units, as in `$1.34/1000` or `8¢ per pair`. -/
def readPerUnit (text : List Char) : Option PerUnit :=
  (prices text).findSome? fun (price, last, rest) => do
    readUnits price (← separator last rest)

def divide? (amount : Float) (numeral : List Char) : Option Float := do
  let d ← numeralValue? numeral
  if d ≤ 0 then none else some (amount / d)

/-- The variable of a unit; the hint decides where the text has only a count. -/
def PerUnit.variable? (p : PerUnit) (hint : Option String) : Option Variable :=
  match p.unit with
  | some unit => resolveWord? unit hint
  | none => some (numericUnit hint)

def PerUnit.term? (p : PerUnit) (hint : Option String) : Option Term := do
  let amount ← p.price.dollars?
  let per ← p.variable? hint
  let amount ← (p.count.toList ++ p.divisor.toList).foldlM divide? amount
  some ⟨per, amount⟩

/-- One specific rate. A text with an each-word is never read in the other way. -/
def specific? (text : String) (hint : Option String) : Option Term :=
  match readEach text.toList with
  | some (price, word) => do
    let amount ← price.dollars?
    some ⟨← resolveWord? word hint, amount⟩
  | none => do (← readPerUnit text.toList).term? hint

end Tariff.Rate
