import Tariff.Decimal.Layout
import Tariff.Text.Blank

/-!
Numbers as they are written in a formula. They have to be finite: the program stops where it comes
to write any other number.
-/

namespace Tariff.Formula

/-- A number that no formula may hold. -/
structure Fault where
  number : Float

def Fault.message (f : Fault) : String :=
  "non-finite formula literal " ++ Decimal.plain.render f.number

def fault? (x : Float) : Option Fault := if x.isFinite then none else some ⟨x⟩

/-- A finite number with at most ten digits behind the point and no zeros at the end. A number too
small for that is written out in full, so that only zero is written as zero. -/
def literal (x : Float) : String :=
  let digits := Text.dropTail (· == '.') (Text.dropTail (· == '0') (Decimal.fixed 10 x).toList)
  let s := String.ofList digits
  if s = "" ∨ s = "0" ∨ s = "-0" then (if x == 0 then "0" else Decimal.plain.render x) else s

/-- Writes a number, or stops at it. -/
def write (x : Float) : Except Fault String :=
  match fault? x with
  | none => .ok (literal x)
  | some f => .error f

end Tariff.Formula
