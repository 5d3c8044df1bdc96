import Tariff.Json.Record
import Tariff.Schedule.Entry
import Tariff.Time.Rfc3339

/-!
Entries and updates as JSON. An entry is written with all its fields; read, each of them may be
missing. Origins, provenances and updates have to be complete but for the fields that may be null.
-/

namespace Tariff

open Json (Document)

/-! ### Small data -/

def Variable.ofDocument? (d : Document) : Option Variable := d.case?.bind Variable.ofName?

def Variable.toJson (v : Variable) : Json := .string v.name

def Method.ofDocument? (d : Document) : Option Method := do
  match ← d.case? with
  | "pattern" => some .pattern
  | "ai" => some .ai
  | _ => none

def Status.ofDocument? (d : Document) : Option Status := do
  match ← d.case? with
  | "LINKED" => some .linked
  | "UNRESOLVED" => some .unresolved
  | "NONE" => some .noLinks
  | _ => none

def Column.ofName? (s : String) : Option Column := Column.all.find? (·.name == s)

def Instant.ofDocument? (d : Document) : Option Instant := d.string?.bind Instant.read?

def Instant.toJson (t : Instant) : Json := .string t.render

namespace Json

def ofFloat (x : Float) : Json := .number (.float x)

def ofVariables (vs : List Variable) : Json := .array (vs.map Variable.toJson)

end Json

def Json.Document.strings? (d : Document) : Option (List String) := d.list? Document.string?

def Json.Document.variables? (d : Document) : Option (List Variable) :=
  d.list? Variable.ofDocument?

/-! ### Footnotes -/

/-- Reads a piece of a footnote, in which at most `room` arrays and objects lie within one
another. Of an object with a text under `value` only that text is kept. -/
def Fragment.ofDocument? (room : Nat) (d : Document) : Option Fragment := do
  let j ← d.value? room
  match j, d with
  | .string s, _ => some (.text s)
  | _, .object fs =>
    match Document.onlyField? fs "value" with
    | some (some (.string (some s))) => some (.value s)
    | _ => some (.other j)
  | _, _ => some (.other j)

def Fragment.toJson : Fragment → Json
  | .text s => .string s
  | .value s => .object [("value", .string s)]
  | .other j => j

def Fragment.listOfDocument? (room : Nat) : Document → Option (List Fragment)
  | .array ds =>
    match room with
    | 0 => none
    | r + 1 => ds.mapM (ofDocument? r)
  | _ => none

def Footnotes.ofDocument? (room : Nat) : Document → Option Footnotes
  | .string s => s.map .text
  | d => (Fragment.listOfDocument? room d).map .fragments

def Footnotes.toJson : Footnotes → Json
  | .text s => .string s
  | .fragments fs => .array (fs.map Fragment.toJson)

/-! ### Origins, provenances and updates -/

def Origin.ofDocument? (d : Document) : Option Origin := do
  match ← d.allFields? ["method", "confidence", "generatedAt"] with
  | [method, confidence, generatedAt] =>
    some {
      method := ← Document.required? Method.ofDocument? method
      confidence := ← Document.required? Document.float? confidence
      generatedAt := ← Document.missing? Instant.ofDocument? generatedAt }
  | _ => none

def Origin.toJson (o : Origin) : Json := .object [
  ("method", .string o.method.name),
  ("confidence", .ofFloat o.confidence),
  ("generatedAt", .ofOption Instant.toJson o.generatedAt)]

def Provenance.ofDocument? (d : Document) : Option Provenance := do
  match ← d.allFields? ["status", "selectedCode", "adjustmentRate", "passThroughMarker", "reason",
      "nonNtrDefaulted", "synthesizedAt"] with
  | [status, selectedCode, adjustmentRate, passThrough, reason, nonNtrDefaulted, synthesizedAt] =>
    some {
      status := ← Document.required? Status.ofDocument? status
      selectedCode := ← Document.missing? Document.string? selectedCode
      adjustmentRate := ← Document.missing? Document.float? adjustmentRate
      passThrough := ← Document.required? Document.bool? passThrough
      reason := ← Document.missing? Document.string? reason
      nonNtrDefaulted := ← Document.required? Document.bool? nonNtrDefaulted
      synthesizedAt := ← Document.missing? Instant.ofDocument? synthesizedAt }
  | _ => none

def Provenance.toJson (p : Provenance) : Json := .object [
  ("status", .string p.status.name),
  ("selectedCode", .ofString? p.selectedCode),
  ("adjustmentRate", .ofOption .ofFloat p.adjustmentRate),
  ("passThroughMarker", .bool p.passThrough),
  ("reason", .ofString? p.reason),
  ("nonNtrDefaulted", .bool p.nonNtrDefaulted),
  ("synthesizedAt", .ofOption Instant.toJson p.synthesizedAt)]

/-- Reads a compiled formula; its variables are put in order, each once. -/
def Compiled.ofDocument? (d : Document) : Option Compiled := do
  match ← d.allFields? ["formula", "variables", "confidence", "method"] with
  | [formula, vars, confidence, method] =>
    some {
      formula := ← Document.required? Document.string? formula
      vars := Variable.canonical (← Document.required? Document.variables? vars)
      confidence := ← Document.required? Document.float? confidence
      method := ← Document.required? Method.ofDocument? method }
  | _ => none

def Compiled.toJson (c : Compiled) : Json := .object [
  ("formula", .string c.formula),
  ("variables", .ofVariables c.vars),
  ("confidence", .ofFloat c.confidence),
  ("method", .string c.method.name)]

def EntryUpdate.ofDocument? (d : Document) : Option EntryUpdate := do
  match ← d.allFields? ["code", "chapter99Links", "chapter99ApplicableCountries",
      "nonNtrApplicableCountries", "adjustedFormula", "adjustedVariables", "synthesis"] with
  | [code, links, countries, nonNtr, adjusted, adjustedVariables, provenance] =>
    some {
      code := ← Document.required? Document.string? code
      links := ← Document.required? Document.strings? links
      countries := ← Document.missing? Document.strings? countries
      nonNtr := ← Document.required? Document.strings? nonNtr
      adjusted := ← Document.missing? Document.string? adjusted
      adjustedVariables := ← Document.required? Document.variables? adjustedVariables
      provenance := ← Document.required? Provenance.ofDocument? provenance }
  | _ => none

def EntryUpdate.toJson (u : EntryUpdate) : Json := .object [
  ("code", .string u.code),
  ("chapter99Links", .ofStrings u.links),
  ("chapter99ApplicableCountries", .ofOption .ofStrings u.countries),
  ("nonNtrApplicableCountries", .ofStrings u.nonNtr),
  ("adjustedFormula", .ofString? u.adjusted),
  ("adjustedVariables", .ofVariables u.adjustedVariables),
  ("synthesis", u.provenance.toJson)]

/-! ### Entries -/

namespace Entry

def fieldNames : List String := [
  "code", "chapter", "description", "generalRateText", "otherRateText", "unitOfQuantity",
  "chapter99Links", "footnotes", "chapter99ApplicableCountries", "nonNtrApplicableCountries",
  "rateFormula", "rateVariables", "rateOrigin", "otherRateFormula", "otherRateVariables",
  "otherRateOrigin", "adjustedFormula", "adjustedVariables", "metadata"]

/-- Reads the metadata of an entry: its source footnotes and the outcome of the last synthesis. -/
def readMetadata (room : Nat) (d : Document) :
    Option (Option (List Fragment) × Option Provenance) := do
  match ← d.someFields? ["sourceFootnotes", "synthesis"] with
  | [footnotes, provenance] =>
    some (← Document.missing? (Fragment.listOfDocument? room) footnotes,
      ← Document.missing? Provenance.ofDocument? provenance)
  | _ => none

/-- Reads an entry, in whose footnotes at most `room` arrays and objects lie within one
another. -/
def ofDocument? (room : Nat) (d : Document) : Option Entry := do
  match ← d.someFields? fieldNames with
  | [code, chapter, description, generalText, otherText, unit, links, footnotes, countries, nonNtr,
      formula, vars, origin, otherFormula, otherVariables, otherOrigin, adjusted,
      adjustedVariables, metadata] =>
    let text := Document.missing? Document.string?
    let names := Document.missing? Document.variables?
    let list := Document.missing? Document.strings?
    let (sourceFootnotes, provenance) ←
      Document.optional? (none, none) (readMetadata (room - 1)) metadata
    some {
      code := ← Document.optional? "" Document.string? code
      chapter := ← Document.optional? "" Document.string? chapter
      description := ← Document.optional? "" Document.string? description
      general := {
        text := ← text generalText
        formula := ← text formula
        vars := ← names vars
        origin := ← Document.missing? Origin.ofDocument? origin }
      other := {
        text := ← text otherText
        formula := ← text otherFormula
        vars := ← names otherVariables
        origin := ← Document.missing? Origin.ofDocument? otherOrigin }
      unit := ← text unit
      links := ← list links
      footnotes := ← Document.missing? (Footnotes.ofDocument? room) footnotes
      countries := ← list countries
      nonNtr := ← list nonNtr
      adjusted := ← text adjusted
      adjustedVariables := ← names adjustedVariables
      sourceFootnotes := sourceFootnotes
      provenance := provenance }
  | _ => none

def toJson (e : Entry) : Json := .object [
  ("code", .string e.code),
  ("chapter", .string e.chapter),
  ("description", .string e.description),
  ("generalRateText", .ofString? e.general.text),
  ("otherRateText", .ofString? e.other.text),
  ("unitOfQuantity", .ofString? e.unit),
  ("chapter99Links", .ofOption .ofStrings e.links),
  ("footnotes", .ofOption Footnotes.toJson e.footnotes),
  ("chapter99ApplicableCountries", .ofOption .ofStrings e.countries),
  ("nonNtrApplicableCountries", .ofOption .ofStrings e.nonNtr),
  ("rateFormula", .ofString? e.general.formula),
  ("rateVariables", .ofOption .ofVariables e.general.vars),
  ("rateOrigin", .ofOption Origin.toJson e.general.origin),
  ("otherRateFormula", .ofString? e.other.formula),
  ("otherRateVariables", .ofOption .ofVariables e.other.vars),
  ("otherRateOrigin", .ofOption Origin.toJson e.other.origin),
  ("adjustedFormula", .ofString? e.adjusted),
  ("adjustedVariables", .ofOption .ofVariables e.adjustedVariables),
  ("metadata", .object [
    ("sourceFootnotes", .ofOption (fun fs => .array (fs.map Fragment.toJson)) e.sourceFootnotes),
    ("synthesis", .ofOption Provenance.toJson e.provenance)])]

end Entry

end Tariff
