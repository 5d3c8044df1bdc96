import Tariff.Formula.Compiled
import Tariff.Json.Basic
import Tariff.Time.Instant

/-!
The lines of a tariff schedule, and the updates that are written onto them.
-/

namespace Tariff

/-- The two rate columns: the general rate, and the rate for countries without normal trade
relations. -/
inductive Column where
  | general
  | other
deriving DecidableEq, Repr

def Column.all : List Column := [.general, .other]

def Column.name : Column → String
  | .general => "general"
  | .other => "other"

structure Origin where
  method : Method
  confidence : Float
  generatedAt : Option Instant
deriving BEq

structure ColumnRate where
  text : Option String := none
  formula : Option String := none
  vars : Option (List Variable) := none
  origin : Option Origin := none
deriving BEq

/-- A piece of a footnote: a text, an object with a text under `value`, or anything else. -/
inductive Fragment where
  | text (s : String)
  | value (s : String)
  | other (j : Json)
deriving BEq

def Fragment.text? : Fragment → Option String
  | .text s => some s
  | .value s => some s
  | .other _ => none

/-- Footnotes: a list of pieces, or a text, which may hold such a list as JSON. -/
inductive Footnotes where
  | fragments (fs : List Fragment)
  | text (s : String)
deriving BEq

/-- How a synthesis ended: a heading was selected, there are links but none qualifies, or there
are no links. -/
inductive Status where
  | linked
  | unresolved
  | noLinks
deriving DecidableEq, Repr

def Status.name : Status → String
  | .linked => "LINKED"
  | .unresolved => "UNRESOLVED"
  | .noLinks => "NONE"

structure Provenance where
  status : Status
  selectedCode : Option String
  adjustmentRate : Option Float
  passThrough : Bool
  reason : Option String
  /-- the list of countries without normal trade relations is the default one, not the entry's -/
  nonNtrDefaulted : Bool
  synthesizedAt : Option Instant
deriving BEq

/-- Equal but for the time. -/
def Provenance.sameOutcome (a b : Provenance) : Bool :=
  a.status == b.status && a.selectedCode == b.selectedCode
    && a.adjustmentRate == b.adjustmentRate && a.passThrough == b.passThrough
    && a.reason == b.reason && a.nonNtrDefaulted == b.nonNtrDefaulted

/-- One line of the schedule. -/
structure Entry where
  code : String := ""
  chapter : String := ""
  description : String := ""
  general : ColumnRate := {}
  other : ColumnRate := {}
  /-- the unit of quantity, such as `No.`, `kg` or `X` -/
  unit : Option String := none
  /-- the stored links to Chapter 99 -/
  links : Option (List String) := none
  footnotes : Option Footnotes := none
  /-- the countries that the adjustment applies to -/
  countries : Option (List String) := none
  /-- the countries without normal trade relations -/
  nonNtr : Option (List String) := none
  adjusted : Option String := none
  adjustedVariables : Option (List Variable) := none
  sourceFootnotes : Option (List Fragment) := none
  provenance : Option Provenance := none
deriving BEq

structure FormulaUpdate where
  code : String
  column : Column
  compiled : Compiled
  generatedAt : Option Instant

structure EntryUpdate where
  code : String
  links : List String
  countries : Option (List String)
  nonNtr : List String
  adjusted : Option String
  adjustedVariables : List Variable
  provenance : Provenance

namespace Entry

def additionalDutyChapter : String := "99"

/-- Whether the entry is a heading of additional duties, by its chapter or its code. -/
def isAdditionalDuty (e : Entry) : Bool :=
  e.chapter == additionalDutyChapter || additionalDutyChapter.toList.isPrefixOf e.code.toList

def rate (e : Entry) : Column → ColumnRate
  | .general => e.general
  | .other => e.other

def setRate (e : Entry) (c : Column) (r : ColumnRate) : Entry :=
  match c with
  | .general => { e with general := r }
  | .other => { e with other := r }

def applyFormula (e : Entry) (u : FormulaUpdate) : Entry :=
  e.setRate u.column {
    text := (e.rate u.column).text
    formula := some u.compiled.formula
    vars := some u.compiled.vars
    origin := some ⟨u.compiled.method, u.compiled.confidence, u.generatedAt⟩ }

def applySynthesis (e : Entry) (u : EntryUpdate) : Entry :=
  { e with
    links := some u.links
    countries := u.countries
    nonNtr := some u.nonNtr
    adjusted := u.adjusted
    adjustedVariables := u.adjusted.map fun _ => u.adjustedVariables
    provenance := some u.provenance }

end Entry

end Tariff
