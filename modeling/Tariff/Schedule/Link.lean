import Tariff.Schedule.Record
import Tariff.Text.Scan

/-!
The links of an entry to the additional-duty headings of Chapter 99. They are read out of the stored
links, the footnotes and the source footnotes; the result has each code once, in order.
-/

namespace Tariff

open Tariff.Text

inductive CodeChar where
  | digit
  | char (c : Char)

def CodeChar.accepts : CodeChar → Char → Bool
  | .digit, c => isDecimalDigit c
  | .char d, c => d == c

/-- The form `99dd.dd.dd`. -/
def shortCode : List CodeChar := [
  .char '9', .char '9', .digit, .digit, .char '.', .digit, .digit, .char '.', .digit, .digit]

/-- The form `99dd.dd.dd.dd`. -/
def longCode : List CodeChar := shortCode ++ [.char '.', .digit, .digit]

/-- Takes a code of one form that ends at a word boundary. -/
def takeForm (form : List CodeChar) (text : List Char) : Option (List Char × List Char) :=
  let code := text.take form.length
  let rest := text.drop form.length
  if code.length == form.length && (form.zip code).all (fun (f, c) => f.accepts c)
      && atBoundary code.getLast? rest then
    some (code, rest)
  else none

/-- A code of Chapter 99 that begins and ends at word boundaries, the long form if there is one. -/
def chapter99Code : Pattern String := fun before text =>
  if atBoundary before text then
    (takeForm longCode text <|> takeForm shortCode text).map fun (code, rest) =>
      (String.ofList code, rest)
  else none

def chapter99Codes (text : String) : List String := chapter99Code.collect text.toList

/-- A list without what it repeats, in increasing order. -/
def sortedSet (xs : List String) : List String :=
  xs.foldl insert []
where
  insert (xs : List String) (s : String) : List String :=
    match xs with
    | [] => [s]
    | x :: rest => if s < x then s :: x :: rest else if s = x then x :: rest else x :: insert rest s

namespace Footnotes

def fragmentTexts (fs : List Fragment) : List String := fs.filterMap Fragment.text?

/-- The texts to look for codes in. A text that holds a list of pieces as JSON counts as that
list, and any other as itself. -/
def texts : Footnotes → List String
  | .fragments fs => fragmentTexts fs
  | .text s =>
    let trimmed := trimStart s.toList
    let list? := if trimmed.head? = some '[' then
        (Json.Document.read? trimmed).bind (Fragment.listOfDocument? Json.nestingLimit)
      else none
    match list? with
    | some fs => fragmentTexts fs
    | none => [s]

end Footnotes

def Entry.resolveLinks (e : Entry) : List String :=
  let texts := e.links.getD []
    ++ (e.footnotes.map Footnotes.texts).getD []
    ++ (e.sourceFootnotes.map Footnotes.fragmentTexts).getD []
  sortedSet (texts.flatMap chapter99Codes)

end Tariff
