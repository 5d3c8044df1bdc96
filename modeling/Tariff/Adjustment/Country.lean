import Tariff.Rate.Normal
import Tariff.Schedule.Link

/-!
The countries that an additional duty applies to, and the countries without normal trade relations.
-/

namespace Tariff.Adjustment

open Tariff.Text
open Tariff.Rate (someBlanks)

/-- Trimmed, in upper case, without empty ones, each once and in order. -/
def normalizeCountries (list : List String) : List String :=
  sortedSet ((list.map fun c => String.ofList (upper (trim c.toList))).filter (· ≠ ""))

/-- The countries without normal trade relations where an entry does not say. -/
def defaultNonNtr : List String := ["BY", "CU", "KP", "RU"]

/-- A stored list counts unless it is missing or empty. -/
def stored? (list : Option (List String)) : Option (List String) := list.filter (!·.isEmpty)

def nonNtrCountries (e : Entry) : List String :=
  ((stored? e.nonNtr).map normalizeCountries).getD defaultNonNtr

/-- Country names and the codes they stand for. -/
def countryNames : List (String × String) := [
  ("china", "CN"),
  ("prc", "CN"),
  ("people's republic of china", "CN"),
  ("russia", "RU"),
  ("russian federation", "RU"),
  ("belarus", "BY"),
  ("north korea", "KP"),
  ("dprk", "KP"),
  ("democratic people's republic of korea", "KP"),
  ("cuba", "CU")]

/-- A character up to case, as far as ASCII letters are concerned: the long s and the kelvin sign
are letters in another case. -/
def fold (c : Char) : Char := if c == 'ſ' then 's' else if c == '\u212a' then 'k' else c.toLower

/-- The text behind a literal in any case. -/
def literalInAnyCase (s : String) (text : List Char) : Option (List Char) :=
  if (text.take s.length).map fold = s.toList then some (text.drop s.length) else none

/-- A word in any case, with a word boundary on both sides. -/
def wordInAnyCase (s : String) (before : Option Char) (text : List Char) : Option (List Char) :=
  if atBoundary before text then
    (literalInAnyCase s text).filter (atBoundary s.toList.getLast?)
  else none

def endsList (c : Char) : Bool := ".;:()[]".toList.contains c

/-- The words `product of` or `products of`, and what follows them up to the end of the list. -/
def productsOf : Pattern (List Char) := fun before text => do
  let rest ← if atBoundary before text then literalInAnyCase "product" text else none
  let rest ← someBlanks ((literalInAnyCase "s" rest).getD rest)
  let rest ← someBlanks (← literalInAnyCase "of" rest)
  let places := rest.takeWhile (!endsList ·)
  if places.isEmpty then none else some (places, rest.drop places.length)

/-- What stands between two countries: a comma, `and` or `or`. -/
def betweenCountries : Pattern Unit := fun before text =>
  (literal "," text <|> wordInAnyCase "and" before text <|> wordInAnyCase "or" before text).map
    ((), ·)

/-- The code of a country by its name, with or without an article and punctuation around it. -/
def countryCode? (name : List Char) : Option String :=
  let isEdge (c : Char) : Bool := !isAlphanumeric c && c != '\''
  let name := lower (dropTail isEdge ((trim name).dropWhile isEdge))
  countryNames.lookup (String.ofList ((literal "the " name).getD name))

/-- The countries that a description names as places of production. -/
def describedCountries (description : String) : List String :=
  sortedSet <| ((productsOf.collect description.toList).flatMap betweenCountries.split).filterMap
    countryCode?

/-- The countries that a heading applies to: those it lists, else those its description names;
none if it says nothing. -/
def applicableCountries (heading : Entry) : Option (List String) :=
  match stored? heading.countries with
  | some list => some (normalizeCountries list)
  | none => some (describedCountries heading.description) |>.filter (!·.isEmpty)

end Tariff.Adjustment
