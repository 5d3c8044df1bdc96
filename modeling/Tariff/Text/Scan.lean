import Tariff.Text.Word

/-!
Searching a text from left to right. A pattern says what it takes at one place; a search tries it
at each place in turn and goes on behind what it took, so matches never overlap.
-/

namespace Tariff.Text

/-- What is found at one place: given the character before it and the text from there on, the
finding and the text left behind it. -/
abbrev Pattern (α : Type) := Option Char → List Char → Option (α × List Char)

def literal (s : String) (text : List Char) : Option (List Char) := s.toList.isPrefixOf? text

def occurs (needle : List Char) : List Char → Bool
  | [] => needle.isEmpty
  | c :: cs => needle.isPrefixOf (c :: cs) || occurs needle cs

namespace Pattern

variable {α : Type}

/-- All findings; `skip` characters still belong to the last one. -/
def collectFrom (p : Pattern α) : Option Char → Nat → List Char → List α
  | _, _, [] => []
  | _, skip + 1, c :: cs => collectFrom p (some c) skip cs
  | before, 0, c :: cs =>
    match p before (c :: cs) with
    | some (a, rest) => a :: collectFrom p (some c) (cs.length - rest.length) cs
    | none => collectFrom p (some c) 0 cs

def collect (p : Pattern α) (text : List Char) : List α := collectFrom p none 0 text

/-- The text with each finding replaced; `skip` characters still belong to the last one. -/
def replaceFrom (p : Pattern α) (image : List Char) : Option Char → Nat → List Char → List Char
  | _, _, [] => []
  | _, skip + 1, c :: cs => replaceFrom p image (some c) skip cs
  | before, 0, c :: cs =>
    match p before (c :: cs) with
    | some (_, rest) => image ++ replaceFrom p image (some c) (cs.length - rest.length) cs
    | none => c :: replaceFrom p image (some c) 0 cs

def replace (p : Pattern α) (image : String) (text : List Char) : List Char :=
  replaceFrom p image.toList none 0 text

/-- The pieces between the findings; `skip` characters still belong to the last one. -/
def splitFrom (p : Pattern α) : Option Char → Nat → List Char → List (List Char)
  | _, _, [] => [[]]
  | _, skip + 1, c :: cs => splitFrom p (some c) skip cs
  | before, 0, c :: cs =>
    match p before (c :: cs) with
    | some (_, rest) => [] :: splitFrom p (some c) (cs.length - rest.length) cs
    | none =>
      match splitFrom p (some c) 0 cs with
      | [] => [[c]]
      | s :: ss => (c :: s) :: ss

/-- What stands between the findings; never empty. -/
def split (p : Pattern α) (text : List Char) : List (List Char) := splitFrom p none 0 text

end Pattern

end Tariff.Text
