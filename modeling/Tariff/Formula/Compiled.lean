import Tariff.Formula.Variable

/-!
A compiled formula and where it came from.
-/

namespace Tariff

/-- How a formula was found: by a rule of the grammar, or by the generative provider. -/
inductive Method where
  | pattern
  | ai
deriving DecidableEq, Repr

def Method.name : Method → String
  | .pattern => "pattern"
  | .ai => "ai"

/-- A formula over value, weight and quantity. -/
structure Compiled where
  formula : String
  /-- the variables it names, in the order value, weight, quantity -/
  vars : List Variable
  /-- how certain it is, from 0 to 1 -/
  confidence : Float
  method : Method

def Compiled.zero : Compiled := ⟨"0", [], 1, .pattern⟩

end Tariff
