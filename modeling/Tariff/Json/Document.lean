import Tariff.Json.Token

/-!
A JSON text that is well formed, before any value in it is judged.

Reading is one pass over the tokens with a stack of the arrays and objects still open. A document
keeps the fields of an object in order, also those of one name, and the tokens without a value.
-/

namespace Tariff.Json

inductive Document where
  | null
  | bool (b : Bool)
  | number (n : Option Number)
  | string (s : Option String)
  | array (items : List Document)
  | object (fields : List (Option String × Document))
deriving Inhabited

namespace Document

/-- An array or object still open: what it holds so far, the last first, and for an object the
name of the field that is due. -/
inductive Frame where
  | array (done : List Document)
  | object (done : List (Option String × Document)) (name : Option String)

mutual

/-- A value is due inside the open frames `outer`. -/
def valueDue (outer : List Frame) : List Token → Option Document
  | .null :: ts => valueRead outer .null ts
  | .bool b :: ts => valueRead outer (.bool b) ts
  | .number n :: ts => valueRead outer (.number n) ts
  | .string s :: ts => valueRead outer (.string s) ts
  | .beginArray :: .endArray :: ts => valueRead outer (.array []) ts
  | .beginArray :: ts => valueDue (.array [] :: outer) ts
  | .beginObject :: .endObject :: ts => valueRead outer (.object []) ts
  | .beginObject :: .string k :: .colon :: ts => valueDue (.object [] k :: outer) ts
  | _ => none

/-- The value `d` has been read inside the open frames `outer`. -/
def valueRead (outer : List Frame) (d : Document) : List Token → Option Document
  | [] => if outer.isEmpty then some d else none
  | .comma :: .string k :: .colon :: ts =>
    match outer with
    | .object done name :: outer => valueDue (.object ((name, d) :: done) k :: outer) ts
    | _ => none
  | .comma :: ts =>
    match outer with
    | .array done :: outer => valueDue (.array (d :: done) :: outer) ts
    | _ => none
  | .endArray :: ts =>
    match outer with
    | .array done :: outer => valueRead outer (.array (d :: done).reverse) ts
    | _ => none
  | .endObject :: ts =>
    match outer with
    | .object done name :: outer => valueRead outer (.object ((name, d) :: done).reverse) ts
    | _ => none
  | _ => none

end

def read? (text : List Char) : Option Document := do valueDue [] (← tokens text)

mutual

/-- The value of a document, unless something in it has none or more than `room` arrays and
objects lie within one another. -/
def value? (room : Nat) : Document → Option Json
  | null => some .null
  | bool b => some (.bool b)
  | number n => n.map .number
  | string s => s.map .string
  | array xs =>
    match room with
    | 0 => none
    | r + 1 => (values? r xs).map .array
  | object fs =>
    match room with
    | 0 => none
    | r + 1 => (fields? r fs).map sorted

def values? (room : Nat) : List Document → Option (List Json)
  | [] => some []
  | d :: ds => do
    let j ← value? room d
    (values? room ds).map (j :: ·)

def fields? (room : Nat) : List (Option String × Document) → Option (List (String × Json))
  | [] => some []
  | (k, d) :: fs => do
    let k ← k
    let j ← value? room d
    (fields? room fs).map ((k, j) :: ·)

end

end Document

/-- How many arrays and objects may lie within one another. -/
def nestingLimit : Nat := 127

def parse? (text : String) : Option Json := do
  (← Document.read? text.toList).value? nestingLimit

end Tariff.Json
