import Tariff.Schedule.Entry
import Tariff.Json.Basic

/-!
The formulas of a schedule as a table, one row for each entry, for those who compute duties.
-/

namespace Tariff.Table

inductive Kind where
  | text
  | number
  | texts
  | time
deriving DecidableEq, Repr

def Kind.name : Kind → String
  | .text => "string"
  | .number => "float"
  | .texts => "strings"
  | .time => "timestamp"

inductive Cell where
  | empty
  | text (s : String)
  | number (x : Float)
  | texts (xs : List String)
  | time (t : Instant)

def Cell.ofOption {α : Type} (f : α → Cell) : Option α → Cell
  | some a => f a
  | none => .empty

structure Column where
  name : String
  kind : Kind
  /-- whether a cell may be empty -/
  nullable : Bool
  cell : Entry → Cell

def textColumn (name : String) (f : Entry → Option String) : Column :=
  ⟨name, .text, true, fun e => .ofOption .text (f e)⟩

def textsColumn (name : String) (f : Entry → Option (List String)) : Column :=
  ⟨name, .texts, true, fun e => .ofOption .texts (f e)⟩

def columns : List Column := [
  ⟨"code", .text, false, fun e => .text e.code⟩,
  ⟨"chapter", .text, false, fun e => .text e.chapter⟩,
  textColumn "general_rate_text" (·.general.text),
  textColumn "rate_formula" (·.general.formula),
  textColumn "rate_method" fun e => e.general.origin.map (·.method.name),
  ⟨"rate_confidence", .number, true,
    fun e => .ofOption (fun o => .number o.confidence) e.general.origin⟩,
  textColumn "other_rate_text" (·.other.text),
  textColumn "other_rate_formula" (·.other.formula),
  textColumn "adjusted_formula" (·.adjusted),
  textsColumn "chapter99_links" (·.links),
  textColumn "adjustment_status" fun e => e.provenance.map (·.status.name),
  textColumn "selected_code" fun e => e.provenance.bind (·.selectedCode),
  textsColumn "non_ntr_countries" (·.nonNtr),
  ⟨"synthesized_at", .time, true,
    fun e => .ofOption .time (e.provenance.bind (·.synthesizedAt))⟩]

def row (e : Entry) : List Cell := columns.map (·.cell e)

def rows (entries : List Entry) : List (List Cell) := entries.map row

/-- A cell as JSON; a time is given in microseconds since the start of 1970. -/
def Cell.toJson : Cell → Json
  | .empty => .null
  | .text s => .string s
  | .number x => .number (.float x)
  | .texts xs => .ofStrings xs
  | .time t => .number (.integer t.micros)

end Tariff.Table
