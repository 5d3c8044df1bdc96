import Tariff.Formula.Variable
import Tariff.Json.Printer

/-!
What the provider is asked: the instructions, one rate text or a list of them, and the schema that
the answer has to meet.
-/

namespace Tariff.Generation

/-- A rate text in a batch. Answers are matched to items by index, not by place. -/
structure Item where
  index : Nat
  text : String
  hint : Option String
deriving DecidableEq, Repr

def Item.toJson (i : Item) : Json := .object [
  ("index", .number (.integer i.index)),
  ("rateText", .string i.text),
  ("unitHint", .ofString? i.hint)]

/-- One request for an answer of a given shape. -/
structure Request where
  /-- the name of the answer -/
  tool : String
  system : String
  prompt : String
  schema : Json

def instructions : String :=
"You convert tariff duty rate text into an arithmetic formula.

Rules:
- Use only the variables value (customs value in dollars), weight (kilograms) and quantity (units).
- Express percentages as decimals: 5% is value * 0.05.
- Express cents as dollars: 25 cents/kg is weight * 0.25.
- Compound rates are additive: 5% + 25 cents/kg is value * 0.05 + weight * 0.25.
- \"Free\" is 0.
- For a range, use the lower bound.
- Use only digits, + - * /, parentheses, decimal points and the three variable names.
- confidence is your certainty in [0, 1]."

def singlePrompt (text : String) (hint : Option String) : String :=
  "Compile this duty rate.\nRate text: " ++ text ++ "\nUnit of quantity: " ++ hint.getD "none"

/-- The line before the items of a batch. -/
def itemsMark : String := "Items:\n"

def batchLead : String :=
  "Compile each duty rate below. Return one result per item, echoing its index.\n"

def batchPrompt (items : List Item) : String :=
  batchLead ++ itemsMark ++ (Json.array (items.map Item.toJson)).pretty

/-! ### Schemas -/

def typed (name : String) (rest : List (String × Json)) : Json :=
  .object (("type", .string name) :: rest)

def whole (n : Int) : Json := .number (.integer n)

def answerFields : List (String × Json) := [
  ("formula", typed "string" []),
  ("variables", typed "array" [
    ("items", typed "string" [("enum", .ofStrings (Variable.all.map Variable.name))])]),
  ("confidence", typed "number" [("minimum", whole 0), ("maximum", whole 1)]),
  ("explanation", typed "string" [])]

def requiredFields : List String := ["formula", "variables", "confidence"]

def singleSchema : Json := typed "object" [
  ("properties", .object answerFields),
  ("required", .ofStrings requiredFields)]

def batchSchema : Json := typed "array" [
  ("items", typed "object" [
    ("properties", .object (answerFields ++ [("index", typed "integer" [("minimum", whole 0)])])),
    ("required", .ofStrings ("index" :: requiredFields))])]

def singleRequest (text : String) (hint : Option String) : Request :=
  ⟨"compile_rate", instructions, singlePrompt text hint, singleSchema⟩

def batchRequest (items : List Item) : Request :=
  ⟨"compile_rates", instructions, batchPrompt items, batchSchema⟩

end Tariff.Generation
