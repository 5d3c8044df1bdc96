import Tariff.Generation.Generator
import Tariff.Rate.Compile

/-!
Compiling a rate text by the grammar, and by the provider where the grammar does not know it.
-/

namespace Tariff.Compilation

open Tariff.Generation

/-- The grammar, and a generator for the texts that it does not know, if there is one. -/
structure Compiler where
  generator : Option Generator

/-- The formula if it passes the gate. -/
def gated (c : Compiled) : Except Failure Compiled :=
  match Formula.refusal? c.formula with
  | none => .ok c
  | some r => .error (.unsafeFormula c.formula (.refused r))

/-- Compiles one rate text. Also tells the requests that this took. -/
def Compiler.compile (c : Compiler) (text : String) (hint : Option String) :
    Except Formula.Fault (List Request × Except Failure Compiled) :=
  match Rate.compile text hint with
  | .compiled f => .ok ([], gated f)
  | .unresolved normal =>
    match c.generator with
    | some g => .ok ([singleRequest normal hint], (g.single 0 normal hint).2)
    | none => .ok ([], .error .noProvider)
  | .stopped f => .error f

end Tariff.Compilation
