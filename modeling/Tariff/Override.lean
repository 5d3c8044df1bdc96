import Tariff.Formula.Gate
import Tariff.Schedule.Record
import Tariff.Text.Case

/-!
Formulas set by hand, which take the place of compiled ones for a country or for all, and for one
version of the schedule or for all to come.
-/

namespace Tariff

open Json (Document)

inductive FormulaKind where
  | general
  | other
  | adjusted
deriving DecidableEq, Repr

def FormulaKind.name : FormulaKind → String
  | .general => "general"
  | .other => "other"
  | .adjusted => "adjusted"

def FormulaKind.ofDocument? (d : Document) : Option FormulaKind := do
  let s ← d.case?
  [FormulaKind.general, .other, .adjusted].find? (·.name == s)

structure Override where
  code : String
  /-- a country code, or `ALL` -/
  country : String
  kind : FormulaKind
  formula : String
  /-- the version of the schedule; none for all to come -/
  version : Option String
  note : Option String
deriving DecidableEq, Repr

namespace Override

def allCountries : String := "ALL"

def ofDocument? (d : Document) : Option Override := do
  match ← d.allFields? ["code", "country", "kind", "formula", "version", "note"] with
  | [code, country, kind, formula, version, note] =>
    some {
      code := ← Document.required? Document.string? code
      country := ← Document.required? Document.string? country
      kind := ← Document.required? FormulaKind.ofDocument? kind
      formula := ← Document.required? Document.string? formula
      version := ← Document.missing? Document.string? version
      note := ← Document.missing? Document.string? note }
  | _ => none

def toJson (o : Override) : Json := .object [
  ("code", .string o.code),
  ("country", .string o.country),
  ("kind", .string o.kind.name),
  ("formula", .string o.formula),
  ("version", .ofString? o.version),
  ("note", .ofString? o.note)]

/-- What one asks for: the formula of a kind for goods of a code and country, in one version of the
schedule or in none in particular. -/
structure Query where
  code : String
  country : String
  kind : FormulaKind
  version : Option String

/-- How closely an override meets a query, by country and then by version: 2 for the one asked for,
1 for all. None if it does not apply. -/
def rank? (o : Override) (q : Query) : Option (Nat × Nat) := do
  if o.code ≠ q.code ∨ o.kind ≠ q.kind then none
  let country ←
    if Text.sameIgnoringAsciiCase o.country q.country then some 2
    else if Text.sameIgnoringAsciiCase o.country allCountries then some 1
    else none
  let version ←
    match o.version with
    | none => some 1
    | some v => if q.version = some v then some 2 else none
  some (country, version)

def above (a b : Nat × Nat) : Bool := b.1 < a.1 || (a.1 == b.1 && b.2 < a.2)

end Override

/-- Overrides whose formulas pass the gate, in order. -/
structure Overrides where
  list : List Override

namespace Overrides

def ofList (os : List Override) : Overrides :=
  ⟨os.filter fun o => (Formula.refusal? o.formula).isNone⟩

/-- The best of those found so far and one more; of equals the earlier stays. -/
def better (q : Override.Query) (best : Option ((Nat × Nat) × Override)) (o : Override) :
    Option ((Nat × Nat) × Override) :=
  match o.rank? q, best with
  | none, _ => best
  | some r, none => some (r, o)
  | some r, some (s, p) => if Override.above r s then some (r, o) else some (s, p)

/-- The override that meets a query most closely, the earliest of equals. -/
def resolve? (s : Overrides) (q : Override.Query) : Option Override :=
  (s.list.foldl (better q) none).map (·.2)

def computed? (e : Entry) : FormulaKind → Option String
  | .general => e.general.formula
  | .other => e.other.formula
  | .adjusted => e.adjusted

/-- The formula to use for an entry: the override's, else the compiled one. -/
def effective? (s : Overrides) (e : Entry) (kind : FormulaKind) (country : String)
    (version : Option String) : Option String :=
  match s.resolve? ⟨e.code, country, kind, version⟩ with
  | some o => some o.formula
  | none => computed? e kind

end Overrides

end Tariff
