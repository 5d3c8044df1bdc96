import Tariff.Text.Word

/-!
The variables of a duty formula, and the ones a text names.
-/

namespace Tariff

/-- What a duty depends on: customs value, net weight, number of units. -/
inductive Variable where
  | value
  | weight
  | quantity
deriving DecidableEq, Repr, Inhabited

namespace Variable

def all : List Variable := [.value, .weight, .quantity]

def name : Variable → String
  | .value => "value"
  | .weight => "weight"
  | .quantity => "quantity"

/-- The variable of a name; names are lower-case. -/
def ofName? (s : String) : Option Variable := all.find? (·.name == s)

@[simp] theorem ofName?_name (v : Variable) : ofName? v.name = some v := by cases v <;> decide

theorem eq_name_of_ofName? {s : String} {v : Variable} (h : ofName? s = some v) : s = v.name :=
  (eq_of_beq (List.find?_some (p := fun v : Variable => v.name == s) h)).symm

/-- The variables among `vs`, each once, in the order value, weight, quantity. -/
def canonical (vs : List Variable) : List Variable := all.filter (vs.contains ·)

/-- The variables that a text names as whole words, in order. -/
def named (text : String) : List Variable :=
  canonical ((Text.words text.toList).filterMap fun w => ofName? (String.ofList w))

end Variable

end Tariff
