import Tariff.Formula.Variable
import Tariff.Text.Blank
import Tariff.Text.Quoted

/-!
The gate that every formula passes before it is stored or trusted: it holds allowed characters
only, none of the forbidden words, and its parentheses match. The gate does not know the grammar
of formulas.
-/

namespace Tariff.Formula

open Tariff.Text

inductive Refusal where
  | empty
  | character (c : Char)
  | word (w : String)
  | parentheses
deriving DecidableEq, Repr

def Refusal.message : Refusal → String
  | .empty => "formula is empty"
  | .character c => "disallowed character " ++ quotedChar c
  | .word w => "forbidden token " ++ quoted w
  | .parentheses => "unbalanced parentheses"

def forbiddenWords : List String := [
  "function", "return", "eval", "new", "this", "constructor", "prototype", "__proto__", "import",
  "require", "process", "global", "globalthis", "window", "document", "while", "for", "if",
  "else", "class", "async", "await", "yield", "delete", "typeof", "instanceof", "var", "let",
  "const", "throw", "try", "catch", "exec", "system", "inf", "infinity", "nan"]

/-- A lower-case ASCII letter or an underscore. -/
def isNameChar (c : Char) : Bool := ('a' ≤ c && c ≤ 'z') || c == '_'

def isAllowed (c : Char) : Bool :=
  isAsciiDigit c || isNameChar c || isBlank c || "+-*/().".toList.contains c

/-- The names in a formula: runs of lower-case letters and underscores, digits apart. -/
def names (cs : List Char) : List String := (runsOf isNameChar cs).map String.ofList

/-- Whether the parentheses match when `depth` of them are open. -/
def balanced (depth : Nat) : List Char → Bool
  | [] => depth == 0
  | '(' :: cs => balanced (depth + 1) cs
  | ')' :: cs =>
    match depth with
    | 0 => false
    | d + 1 => balanced d cs
  | _ :: cs => balanced depth cs

/-- The first reason to refuse a formula, if there is one. -/
def refusal? (formula : String) : Option Refusal :=
  let cs := formula.toList
  if cs.all isBlank then some .empty
  else
    match cs.find? (!isAllowed ·) with
    | some c => some (.character c)
    | none =>
      match (names cs).find? (forbiddenWords.contains ·) with
      | some w => some (.word w)
      | none => if balanced 0 cs then none else some .parentheses

/-- The formula passes the gate. -/
def Accepted (formula : String) : Prop := refusal? formula = none

instance (formula : String) : Decidable (Accepted formula) :=
  inferInstanceAs (Decidable (_ = _))

structure Verdict where
  refusal : Option Refusal
  /-- the variables it names; none when it is refused -/
  vars : List Variable
deriving DecidableEq, Repr

def check (formula : String) : Verdict :=
  match refusal? formula with
  | some r => ⟨some r, []⟩
  | none => ⟨none, Variable.named formula⟩

end Tariff.Formula
