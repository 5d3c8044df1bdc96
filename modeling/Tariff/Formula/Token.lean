import Tariff.Decimal.Reader
import Tariff.Formula.Gate

/-!
The tokens of a formula, each with the place of its first character. Blanks separate tokens and
are dropped.
-/

namespace Tariff.Formula

open Tariff.Text

inductive EvalError where
  | unexpectedChar (c : Char) (place : Nat)
  | unknownName (name : String)
  | unexpectedEnd
  | trailingInput (place : Nat)
  | divisionByZero
deriving DecidableEq, Repr

def EvalError.message : EvalError → String
  | .unexpectedChar c i => "unexpected character " ++ quotedChar c ++ " at " ++ toString i
  | .unknownName s => "unknown identifier " ++ quoted s
  | .unexpectedEnd => "unexpected end of formula"
  | .trailingInput i => "trailing input at " ++ toString i
  | .divisionByZero => "division by zero"

inductive Op where
  | add
  | sub
  | mul
  | div
deriving DecidableEq, Repr

def Op.char : Op → Char
  | .add => '+'
  | .sub => '-'
  | .mul => '*'
  | .div => '/'

def Op.ofChar? : Char → Option Op
  | '+' => some .add
  | '-' => some .sub
  | '*' => some .mul
  | '/' => some .div
  | _ => none

inductive Token where
  | number (x : Float)
  | name (s : String)
  | op (o : Op)
  | opening
  | closing

/-- A token and the place of its first character. -/
abbrev Placed := Nat × Token

def isNumberChar (c : Char) : Bool := isAsciiDigit c || c == '.'

/-- The tokens from place `i` on; `skip` characters still belong to the last token. -/
def tokensFrom (i : Nat) : Nat → List Char → Except EvalError (List Placed)
  | _, [] => .ok []
  | skip + 1, _ :: cs => tokensFrom (i + 1) skip cs
  | 0, c :: cs =>
    if isBlank c then tokensFrom (i + 1) 0 cs
    else if isNumberChar c then
      let tail := cs.takeWhile isNumberChar
      match Decimal.read? (c :: tail) with
      | some x => (tokensFrom (i + 1) tail.length cs).map ((i, .number x) :: ·)
      | none => .error (.unexpectedChar c i)
    else if isNameChar c then
      let tail := cs.takeWhile isNameChar
      (tokensFrom (i + 1) tail.length cs).map ((i, .name (String.ofList (c :: tail))) :: ·)
    else if c == '(' then (tokensFrom (i + 1) 0 cs).map ((i, .opening) :: ·)
    else if c == ')' then (tokensFrom (i + 1) 0 cs).map ((i, .closing) :: ·)
    else
      match Op.ofChar? c with
      | some o => (tokensFrom (i + 1) 0 cs).map ((i, .op o) :: ·)
      | none => .error (.unexpectedChar c i)

def tokens (formula : String) : Except EvalError (List Placed) := tokensFrom 0 0 formula.toList

end Tariff.Formula
