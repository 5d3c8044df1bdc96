import Tariff.Adjustment.Compose

/-!
Synthesis of one entry: its links are resolved, its adjustment is found, and what that derives is
compared with what the entry holds.
-/

namespace Tariff

open Adjustment (Headings nonNtrCountries normalizeCountries defaultNonNtr stored?)

structure Synthesis where
  adjustment : Adjustment
  update : EntryUpdate
  /-- whether the update differs from what the entry holds -/
  changed : Bool

/-- The list without blanks around its texts, without empty ones, each once and in order. -/
def normalizeLinks (links : List String) : List String :=
  sortedSet ((links.map fun s => String.ofList (Text.trim s.toList)).filter (· ≠ ""))

namespace Synthesis

/-- Whether the countries without normal trade relations are the default ones. A stored list is, if
it equals them and the last synthesis wrote it for want of another. -/
def nonNtrDefaulted (e : Entry) : Bool :=
  match stored? e.nonNtr with
  | none => true
  | some list =>
    (e.provenance.any (·.nonNtrDefaulted)) && normalizeCountries list == defaultNonNtr

/-- Whether an update says anything that the entry does not hold, lists taken in normal form and
the time of the synthesis left out. -/
def differs (e : Entry) (u : EntryUpdate) : Bool :=
  normalizeLinks (e.links.getD []) != u.links
    || e.countries.map normalizeCountries != u.countries
    || normalizeCountries (e.nonNtr.getD []) != u.nonNtr
    || e.adjusted != u.adjusted
    || !(e.provenance.any (·.sameOutcome u.provenance))

def updateOf (now : Instant) (e : Entry) (links : List String) (a : Adjustment) : EntryUpdate where
  code := e.code
  links := links
  countries := a.countries
  nonNtr := a.nonNtr
  adjusted := a.adjusted
  adjustedVariables := (a.adjusted.map Variable.named).getD []
  provenance := {
    status := a.status
    selectedCode := a.reference.map (·.code)
    adjustmentRate := a.reference.map (·.rate)
    passThrough := a.reference.any (·.passThrough)
    reason := a.reason.map (·.message)
    nonNtrDefaulted := nonNtrDefaulted e
    synthesizedAt := some now }

def ofEntry (now : Instant) (h : Headings) (e : Entry) : Synthesis :=
  let links := e.resolveLinks
  let a := Adjustment.ofEntry e links h
  let u := updateOf now e links a
  ⟨a, u, differs e u⟩

end Synthesis

end Tariff
