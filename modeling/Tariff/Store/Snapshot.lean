import Tariff.Json.Printer
import Tariff.Store.Basic

/-!
A store as text: the JSON array of its entries.
-/

namespace Tariff.Store

/-- How deep the footnotes of an entry may go: the array and the entry around them count. -/
def footnoteRoom : Nat := Json.nestingLimit - 2

def toJson (s : Store) : Json := .array (s.entries.map Entry.toJson)

def render (s : Store) : String := s.toJson.pretty

def ofDocument? (d : Json.Document) : Option Store :=
  (d.list? (Entry.ofDocument? footnoteRoom)).map ofEntries

def read? (text : String) : Option Store := do ofDocument? (← Json.Document.read? text.toList)

inductive File where
  | missing
  /-- something that cannot be read -/
  | locked (reason : String)
  | text (s : String)

def load (path : String) : File → Except StoreError Store
  | .missing => .error (.notFound path)
  | .locked reason => .error (.unreadable reason)
  | .text s =>
    match read? s with
    | some s => .ok s
    | none => .error (.unreadable "not a list of entries")

end Tariff.Store
