import Tariff.Rate.Grammar

/-!
Compiling a rate text by the grammar alone. A text that no rule knows is no error: its normal form
is handed on. A text whose formula would hold a number that is not finite stops the program.
-/

namespace Tariff.Rate

inductive Outcome where
  | compiled (c : Compiled)
  | unresolved (normal : String)
  | stopped (f : Formula.Fault)

def Outcome.fault? : Outcome → Option Formula.Fault
  | .stopped f => some f
  | _ => none

/-- Writes the formula of a shape; the first number that cannot be written stops the program. -/
def Shape.compile (s : Shape) : Outcome :=
  match s.numbers.findSome? Formula.fault? with
  | none => .compiled s.compiled
  | some f => .stopped f

/-- Compiles a text; one of blanks only is the zero rate. -/
def compile (text : String) (hint : Option String) : Outcome :=
  if text.toList.all Text.isBlank then .compiled .zero
  else
    let normal := normalize text
    match parse? normal hint with
    | some shape => shape.compile
    | none => .unresolved normal

/-- The formula of a text that the grammar knows. -/
def compile? (text : String) (hint : Option String) : Except Formula.Fault (Option Compiled) :=
  match compile text hint with
  | .compiled c => .ok (some c)
  | .unresolved _ => .ok none
  | .stopped f => .error f

end Tariff.Rate
