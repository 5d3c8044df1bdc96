import Tariff.Formula.Token

/-!
Evaluation, in one pass over the tokens. Multiplication and division bind tighter than addition
and subtraction, all four associate to the left, and a minus may stand before any factor. A fault
is reported where it is met, so a division by zero hides what is wrong behind it.
-/

namespace Tariff.Formula

structure Binding where
  value : Float
  weight : Float
  quantity : Float

def Binding.get (b : Binding) : Variable → Float
  | .value => b.value
  | .weight => b.weight
  | .quantity => b.quantity

/-- An expression of which a part has been read: the sum and the product so far, each with the
operation that waits for its right operand, and the minus signs before the next factor. -/
structure Partial where
  sum : Option (Float × Op) := none
  product : Option (Float × Op) := none
  minuses : Nat := 0

/-- One operation; only a division can fail. -/
def Op.apply : Op → Float → Float → Except EvalError Float
  | .add, x, y => .ok (x + y)
  | .sub, x, y => .ok (x - y)
  | .mul, x, y => .ok (x * y)
  | .div, x, y => if y == 0 then .error .divisionByZero else .ok (x / y)

/-- The right operand of what waits, if anything does. -/
def settle : Option (Float × Op) → Float → Except EvalError Float
  | none, y => .ok y
  | some (x, o), y => o.apply x y

def negate : Nat → Float → Float
  | 0, x => x
  | n + 1, x => -(negate n x)

def Partial.term (p : Partial) (x : Float) : Except EvalError Float :=
  settle p.product (negate p.minuses x)

mutual

/-- A factor is due. `p` is the innermost open expression, `outer` the ones around it. -/
def factorDue (b : Binding) (p : Partial) (outer : List Partial) :
    List Placed → Except EvalError Float
  | [] => .error .unexpectedEnd
  | (i, t) :: rest =>
    match t with
    | .number x => do termRead b p outer (← p.term x) rest
    | .name s =>
      match Variable.ofName? s with
      | some v => do termRead b p outer (← p.term (b.get v)) rest
      | none => .error (.unknownName s)
    | .op .sub => factorDue b { p with minuses := p.minuses + 1 } outer rest
    | .op o => .error (.unexpectedChar o.char i)
    | .opening => factorDue b {} (p :: outer) rest
    | .closing => .error (.unexpectedChar ')' i)

def termRead (b : Binding) (p : Partial) (outer : List Partial) (x : Float) :
    List Placed → Except EvalError Float
  | [] => if outer.isEmpty then settle p.sum x else .error .unexpectedEnd
  | (i, t) :: rest =>
    match t, outer with
    | .op .add, _ => do factorDue b { sum := some (← settle p.sum x, .add) } outer rest
    | .op .sub, _ => do factorDue b { sum := some (← settle p.sum x, .sub) } outer rest
    | .op o, _ => factorDue b { sum := p.sum, product := some (x, o) } outer rest
    | .closing, q :: outer => do termRead b q outer (← q.term (← settle p.sum x)) rest
    | _, [] => .error (.trailingInput i)
    | _, _ => .error .unexpectedEnd

end

def evaluate (formula : String) (b : Binding) : Except EvalError Float := do
  factorDue b {} [] (← tokens formula)

end Tariff.Formula
