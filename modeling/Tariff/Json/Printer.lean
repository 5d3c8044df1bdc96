import Tariff.Decimal.Layout
import Tariff.Json.Basic
import Tariff.Text.Quoted

/-!
JSON as text, without blanks or laid out with two spaces for each level.
-/

namespace Tariff.Json

open Tariff.Decimal (Layout)

/-- Numbers that are no integers have a point or an exponent; the point stands in place from five
zeros behind it to sixteen digits before it. -/
def numberLayout : Layout := ⟨.toEven, some (-5, 16), true⟩

def Number.render : Number → List Char
  | .integer n => (toString n).toList
  | .float x => if x.isFinite then (numberLayout.render x).toList else "null".toList

/-- One character inside a string. Only quotes, backslashes and controls are escaped. -/
def escape (c : Char) : List Char :=
  if c == '"' then ['\\', '"']
  else if c == '\\' then ['\\', '\\']
  else if c == '\x08' then ['\\', 'b']
  else if c == '\x0c' then ['\\', 'f']
  else if c == '\n' then ['\\', 'n']
  else if c == '\r' then ['\\', 'r']
  else if c == '\t' then ['\\', 't']
  else if c.toNat < 32 then
    ['\\', 'u', '0', '0', Nat.digitChar (c.toNat / 16), Nat.digitChar (c.toNat % 16)]
  else [c]

def renderString (s : String) : List Char := '"' :: s.toList.flatMap escape ++ ['"']

mutual

/-- The text without blanks. -/
def compactChars : Json → List Char
  | null => "null".toList
  | bool b => (if b then "true" else "false").toList
  | number n => n.render
  | string s => renderString s
  | array xs => '[' :: compactItems xs ++ [']']
  | object fs => '\x7b' :: compactFields fs ++ ['\x7d']

def compactItems : List Json → List Char
  | [] => []
  | [x] => compactChars x
  | x :: xs => compactChars x ++ ',' :: compactItems xs

def compactFields : List (String × Json) → List Char
  | [] => []
  | [(k, v)] => renderString k ++ ':' :: compactChars v
  | (k, v) :: fs => renderString k ++ ':' :: compactChars v ++ ',' :: compactFields fs

end

def lineAt (depth : Nat) : List Char := '\n' :: List.replicate (2 * depth) ' '

mutual

/-- The text with each item and field on a line of its own; `depth` is the level of the value. -/
def prettyChars (depth : Nat) : Json → List Char
  | null => "null".toList
  | bool b => (if b then "true" else "false").toList
  | number n => n.render
  | string s => renderString s
  | array [] => ['[', ']']
  | array (x :: xs) =>
    '[' :: lineAt (depth + 1) ++ prettyChars (depth + 1) x ++ prettyItems (depth + 1) xs
      ++ lineAt depth ++ [']']
  | object [] => ['\x7b', '\x7d']
  | object ((k, v) :: fs) =>
    '\x7b' :: lineAt (depth + 1) ++ renderString k ++ ": ".toList ++ prettyChars (depth + 1) v
      ++ prettyFields (depth + 1) fs ++ lineAt depth ++ ['\x7d']

def prettyItems (depth : Nat) : List Json → List Char
  | [] => []
  | x :: xs => ',' :: lineAt depth ++ prettyChars depth x ++ prettyItems depth xs

def prettyFields (depth : Nat) : List (String × Json) → List Char
  | [] => []
  | (k, v) :: fs =>
    ',' :: lineAt depth ++ renderString k ++ ": ".toList ++ prettyChars depth v
      ++ prettyFields depth fs

end

def compact (j : Json) : String := String.ofList (compactChars j)

def pretty (j : Json) : String := String.ofList (prettyChars 0 j)

end Tariff.Json
