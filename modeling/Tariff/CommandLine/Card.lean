import Tariff.Decimal.Layout
import Tariff.Formula.Gate
import Tariff.Schedule.Entry
import Tariff.Time.Rfc3339

/-!
Entries, formulas and verdicts as people read them: one row for each fact, the rows of an entry in
sections. A section without a fact is left out.
-/

namespace Tariff.CommandLine

/-- A named fact, if there is one. -/
abbrev Row := String × Option String

def nameWidth : Nat := 26

def rowText (name value : String) : String :=
  "  " ++ name ++ "".pushn ' ' (nameWidth - name.length) ++ " " ++ value ++ "\n"

def rowsText (rows : List Row) : String :=
  String.join (rows.filterMap fun (name, value) => value.map (rowText name))

def sectionText (title : String) (rows : List Row) : String :=
  if rows.all (·.2.isNone) then "" else title ++ "\n" ++ rowsText rows ++ "\n"

def yesNo (b : Bool) : String := if b then "yes" else "no"

/-- The most items of a list that are shown. -/
def shownItems : Nat := 10

def listText : List String → String
  | [] => "(none)"
  | xs =>
    ", ".intercalate (xs.take shownItems) ++
      (if xs.length ≤ shownItems then ""
      else " ... (+" ++ toString (xs.length - shownItems) ++ " more)")

def certainty (x : Float) : String := Decimal.fixed 2 x

def originText (o : Origin) : String := o.method.name ++ " (" ++ certainty o.confidence ++ ")"

def provenanceRows (p : Provenance) : List Row := [
  ("status", some p.status.name),
  ("selected_code", p.selectedCode),
  ("adjustment_rate", p.adjustmentRate.map Decimal.plain.render),
  ("pass_through_marker", some (yesNo p.passThrough)),
  ("non_ntr_defaulted", some (yesNo p.nonNtrDefaulted)),
  ("reason", p.reason),
  ("synthesized_at", p.synthesizedAt.map Instant.renderOffset)]

def cardText (e : Entry) : String :=
  "=== " ++ e.code ++ " ===\n"
    ++ (if e.description = "" then "" else e.description ++ "\n") ++ "\n"
    ++ sectionText "Rates" [
      ("general_rate_text", e.general.text),
      ("other_rate_text", e.other.text),
      ("unit_of_quantity", e.unit)]
    ++ sectionText "Formulas" [
      ("rate_formula", e.general.formula),
      ("rate_origin", e.general.origin.map originText),
      ("other_rate_formula", e.other.formula),
      ("other_rate_origin", e.other.origin.map originText),
      ("adjusted_formula", e.adjusted)]
    ++ sectionText "Chapter 99" [
      ("chapter99_links", e.links.map listText),
      ("applicable_countries", e.countries.map listText),
      ("non_ntr_countries", e.nonNtr.map listText)]
    ++ (e.provenance.map fun p => sectionText "Synthesis" (provenanceRows p)).getD ""

def variablesText (vs : List Variable) : String := ", ".intercalate (vs.map Variable.name)

/-- A compiled formula, under the rate text it stands for. -/
def compiledText (text : String) (c : Compiled) : String := rowsText [
  ("rate_text", some text),
  ("formula", some c.formula),
  ("variables", some (variablesText c.vars)),
  ("confidence", some (certainty c.confidence)),
  ("method", some c.method.name)]

def verdictText (formula : String) (v : Formula.Verdict) : String := rowsText [
  ("formula", some formula),
  ("valid", some (yesNo v.refusal.isNone)),
  ("error", v.refusal.map (·.message)),
  ("variables", if v.refusal.isNone then some (variablesText v.vars) else none)]

end Tariff.CommandLine
