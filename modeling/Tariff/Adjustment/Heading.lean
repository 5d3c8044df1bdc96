import Tariff.Rate.Grammar
import Tariff.Schedule.Link

/-!
The additional-duty headings of a schedule, the rate that each adds, and the choice of one among
the codes that an entry refers to.
-/

namespace Tariff.Adjustment

open Tariff.Text
open Tariff.Rate

structure Headings where
  list : List (String × Entry)

namespace Headings

def get? (h : Headings) (code : String) : Option Entry := h.list.lookup code

def size (h : Headings) : Nat := h.list.length

/-- One more entry; only a heading counts, and of two with one code the first stays. -/
def insert (h : Headings) (e : Entry) : Headings :=
  let code := String.ofList (trim e.code.toList)
  if e.isAdditionalDuty && (h.get? code).isNone then ⟨h.list ++ [(code, e)]⟩ else h

def ofEntries (entries : List Entry) : Headings := entries.foldl insert ⟨[]⟩

end Headings

/-- A plus sign or the word `plus`, and a percentage. -/
def addedPercentage : Pattern (List Char) := fun before text => do
  let rest ← literal "+" text <|> wholeWord "plus" before text
  let rest := trimStart rest
  let whole := rest.takeWhile isDecimalDigit
  let rest := rest.drop whole.length
  let fraction := match rest with
    | '.' :: r =>
      let ds := r.takeWhile isDecimalDigit
      if ds.isEmpty then [] else '.' :: ds
    | _ => []
  if whole.isEmpty && fraction.isEmpty then none
  else
    let rest ← percentMark (trimStart (rest.drop fraction.length))
    some (whole ++ fraction, rest)

/-- The rate on the value that a heading adds: the first percentage that its text adds, else the
rate of a text that depends on the value alone. -/
def adjustmentRate? (text : String) : Option Float :=
  let normal := normalize text
  match addedPercentage.collect normal.toList with
  | numeral :: _ => percentage? numeral
  | [] => (parse? normal none).bind Shape.valueOnly?

/-- The words that let the duty of the entry pass through. -/
def passThroughPhrase : String := "duty provided in the applicable subheading"

def isPassThrough (text : String) : Bool :=
  occurs passThroughPhrase.toList (normalize text).toList

structure Reference where
  code : String
  rateText : String
  rate : Float
  passThrough : Bool

/-- A code that names a heading with a rate text. -/
structure Candidate where
  code : String
  heading : Entry
  text : String

def candidates (codes : List String) (h : Headings) : List Candidate :=
  codes.filterMap fun code => do
    let heading ← h.get? code
    some ⟨code, heading, ← heading.general.text⟩

/-- Selects a heading: the first that lets the duty pass through, whatever it adds; else the first
that adds a positive rate. -/
def select? (codes : List String) (h : Headings) : Option (Reference × Entry) :=
  let cs := candidates codes h
  match cs.find? (isPassThrough ·.text) with
  | some c => some (⟨c.code, c.text, (adjustmentRate? c.text).getD 0, true⟩, c.heading)
  | none => cs.findSome? fun c => do
      let rate ← (adjustmentRate? c.text).filter (0 < ·)
      some (⟨c.code, c.text, rate, false⟩, c.heading)

end Tariff.Adjustment
