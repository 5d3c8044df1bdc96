import Tariff.Json.Document

/-!
Reading typed data from a document. A record is an object, whose unknown fields are passed over and
whose known fields occur once, or an array of the fields in order.
-/

namespace Tariff.Json.Document

def string? : Document → Option String
  | string s => s
  | _ => none

def bool? : Document → Option Bool
  | bool b => some b
  | _ => none

def float? : Document → Option Float
  | number n => n.map Number.toFloat
  | _ => none

def list? {α : Type} (f : Document → Option α) : Document → Option (List α)
  | array xs => xs.mapM f
  | _ => none

def nullable? {α : Type} (f : Document → Option α) : Document → Option (Option α)
  | null => some none
  | d => (f d).map some

/-- The name of a case without data: a string, or an object with that one field, which is null. -/
def case? : Document → Option String
  | string s => s
  | object [(k, null)] => k
  | _ => none

/-- The fields of an object with one name, which may be missing but not be there twice. -/
def onlyField? (fs : List (Option String × Document)) (name : String) :
    Option (Option Document) :=
  match fs.filter (·.1 == some name) with
  | [] => some none
  | [(_, d)] => some (some d)
  | _ => none

/-- The fields of a record in the order of `names`, each of which may be missing. -/
def someFields? (names : List String) : Document → Option (List (Option Document))
  | object fs => if fs.any (·.1.isNone) then none else names.mapM (onlyField? fs)
  | array xs =>
    if xs.length ≤ names.length then
      some (xs.map some ++ List.replicate (names.length - xs.length) none)
    else none
  | _ => none

/-- The fields of a record, where an array has to hold all of them. -/
def allFields? (names : List String) (d : Document) : Option (List (Option Document)) :=
  match d with
  | array xs => if xs.length = names.length then some (xs.map some) else none
  | _ => someFields? names d

/-- A field that has to be there. -/
def required? {α : Type} (f : Document → Option α) (d : Option Document) : Option α := d.bind f

/-- A field that has a value where it is missing. -/
def optional? {α : Type} (default : α) (f : Document → Option α) : Option Document → Option α
  | none => some default
  | some d => f d

/-- A field that may be missing or null. -/
def missing? {α : Type} (f : Document → Option α) : Option Document → Option (Option α) :=
  optional? none (nullable? f)

end Tariff.Json.Document
