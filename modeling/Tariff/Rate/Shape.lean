import Tariff.Formula.Compiled
import Tariff.Formula.Literal

/-!
What a rate text says once it is understood, and the formula that says the same.
-/

namespace Tariff.Rate

open Tariff.Formula (literal)

/-- So many dollars for each unit of a variable. -/
structure Term where
  per : Variable
  amount : Float

def Term.formula (t : Term) : String := t.per.name ++ " * " ++ literal t.amount

/-- The kinds of rate. Percentages are held as fractions. -/
inductive Shape where
  | free
  | adValorem (rate : Float)
  | compound (rate : Float) (terms : List Term)
  | specific (term : Term)
  | range (low high : Float)

namespace Shape

def ofValue (rate : Float) : String := "value * " ++ literal rate

/-- A compound rate adds its parts, the one on the value first; a range stands for its lower
bound. -/
def formula : Shape → String
  | free => "0"
  | adValorem r => ofValue r
  | compound r ts => " + ".intercalate (ofValue r :: ts.map Term.formula)
  | specific t => t.formula
  | range low _ => ofValue low

/-- The numbers of the formula, in the order in which they are written. -/
def numbers : Shape → List Float
  | free => []
  | adValorem r => [r]
  | compound r ts => r :: ts.map Term.amount
  | specific t => [t.amount]
  | range low _ => [low]

def vars : Shape → List Variable
  | free => []
  | adValorem _ => [.value]
  | compound _ ts => Variable.canonical (.value :: ts.map Term.per)
  | specific t => [t.per]
  | range _ _ => [.value]

def confidence : Shape → Float
  | free => 1
  | adValorem _ => 1
  | compound _ _ => 0.9
  | specific _ => 0.9
  | range _ _ => 0.7

/-- The fraction of the value, where the duty depends on nothing else. -/
def valueOnly? : Shape → Option Float
  | adValorem r => some r
  | range low _ => some low
  | _ => none

/-- The compiled formula, where its numbers can be written. -/
def compiled (s : Shape) : Compiled := ⟨s.formula, s.vars, s.confidence, .pattern⟩

end Shape

end Tariff.Rate
