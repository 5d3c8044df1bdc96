import Tariff.Decimal.Reader

/-!
JSON values.
-/

namespace Tariff

/-- A number: an integer of 64 bits, signed or unsigned, or a floating-point number. -/
inductive Json.Number where
  | integer (n : Int)
  | float (x : Float)
deriving BEq

/-- A JSON value. The fields of an object keep their order. -/
inductive Json where
  | null
  | bool (b : Bool)
  | number (n : Json.Number)
  | string (s : String)
  | array (items : List Json)
  | object (fields : List (String × Json))
deriving BEq, Inhabited

namespace Json

def floatOfInt (n : Int) : Float :=
  let x := Decimal.ofScaled n.natAbs 0
  if n < 0 then -x else x

def Number.toFloat : Number → Float
  | .integer n => floatOfInt n
  | .float x => x

def field? (name : String) : Json → Option Json
  | .object fs => fs.lookup name
  | _ => none

/-- The fields with one more in its place by name; it takes the place of an earlier one of that
name. -/
def insertField (name : String) (v : Json) : List (String × Json) → List (String × Json)
  | [] => [(name, v)]
  | (k, w) :: fs =>
    if name < k then (name, v) :: (k, w) :: fs
    else if name = k then (k, v) :: fs
    else (k, w) :: insertField name v fs

/-- An object with its fields in order of their names; of two with one name the later stays. -/
def sorted (fields : List (String × Json)) : Json :=
  .object (fields.foldl (fun fs (k, v) => insertField k v fs) [])

def ofString? : Option String → Json
  | some s => .string s
  | none => .null

def ofStrings (xs : List String) : Json := .array (xs.map .string)

def ofOption {α : Type} (f : α → Json) : Option α → Json
  | some a => f a
  | none => .null

end Json

end Tariff
