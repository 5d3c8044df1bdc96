import Tariff.Text.Printable

/-!
Quoted text, as error messages show it: between quotes, with escapes for controls, for the quote
itself and for characters that would not show.
-/

namespace Tariff.Text

def hexDigits (n : Nat) : List Char := Nat.toDigits 16 n

/-- One character inside the quotes `quote`. -/
def escape (quote : Char) (c : Char) : List Char :=
  if c == '\x00' then ['\\', '0']
  else if c == '\t' then ['\\', 't']
  else if c == '\r' then ['\\', 'r']
  else if c == '\n' then ['\\', 'n']
  else if c == quote || c == '\\' then ['\\', c]
  else if extendsGrapheme c || !isPrintable c then
    "\\u\x7b".toList ++ hexDigits c.toNat ++ "\x7d".toList
  else [c]

def quoted (s : String) : String :=
  String.ofList ('"' :: s.toList.flatMap (escape '"') ++ ['"'])

def quotedChar (c : Char) : String :=
  String.ofList ('\'' :: escape '\'' c ++ ['\''])

def quotedList (xs : List String) : String :=
  "[" ++ ", ".intercalate (xs.map quoted) ++ "]"

end Tariff.Text
