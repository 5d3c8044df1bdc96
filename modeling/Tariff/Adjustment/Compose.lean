import Tariff.Adjustment.Country
import Tariff.Adjustment.Heading
import Tariff.Formula.Gate

/-!
The adjustment of an entry: the heading selected for it and the formula with the duty that the
heading adds. An adjustment never fails; what stands in its way is given as a reason.
-/

namespace Tariff.Adjustment

open Tariff.Formula

inductive Reason where
  | noReferences
  | notInSchedule (codes : List String)
  | noneQualifies (codes : List String)
  | baseRefused (r : Refusal)
  | adjustedRefused (r : Refusal)
  | noBase
deriving DecidableEq, Repr

def Reason.message : Reason → String
  | .noReferences => "no Chapter 99 references"
  | .notInSchedule codes => "referenced headings not in schedule: " ++ ", ".intercalate codes
  | .noneQualifies codes =>
    "no candidate carries a pass-through marker or positive rate: " ++ ", ".intercalate codes
  | .baseRefused r => "base formula failed validation: " ++ r.message
  | .adjustedRefused r => "adjusted formula failed validation: " ++ r.message
  | .noBase => "entry has no base formula"

end Tariff.Adjustment

namespace Tariff

open Adjustment

structure Adjustment where
  status : Status
  reference : Option Reference
  /-- the countries it applies to; none where that is not known -/
  countries : Option (List String)
  nonNtr : List String
  base : Option String
  adjusted : Option String
  reason : Option Reason

namespace Adjustment

open Tariff.Formula

/-- The base duty and so much of the value on top; the base alone where that is nothing. The rate is
finite, as that of any heading is. -/
def addRate (base : String) (rate : Float) : String :=
  if rate ≤ 0 then base else "(" ++ base ++ ") + (value * " ++ literal rate ++ ")"

def unresolvedReason (codes : List String) (h : Headings) : Reason :=
  if codes.all fun c => (h.get? c).isNone then .notInSchedule codes else .noneQualifies codes

/-- The adjustment of an entry that refers to the headings of `codes`. -/
def ofEntry (e : Entry) (codes : List String) (h : Headings) : Adjustment :=
  let base := e.general.formula
  let without (status : Status) (reason : Reason) : Adjustment :=
    ⟨status, none, none, nonNtrCountries e, base, none, some reason⟩
  if codes.isEmpty then without .noLinks .noReferences
  else
    match select? codes h with
    | none => without .unresolved (unresolvedReason codes h)
    | some (reference, heading) =>
      let linked (adjusted : Option String) (reason : Option Reason) : Adjustment :=
        ⟨.linked, some reference, applicableCountries heading, nonNtrCountries e, base, adjusted,
          reason⟩
      match base with
      | none => linked none (some .noBase)
      | some b =>
        match refusal? b with
        | some r => without .unresolved (.baseRefused r)
        | none =>
          let adjusted := addRate b reference.rate
          match refusal? adjusted with
          | some r => without .unresolved (.adjustedRefused r)
          | none => linked (some adjusted) none

end Adjustment

end Tariff
