import Tariff.Text.CaseTable

/-!
Lower and upper case. One character may become several, and a capital sigma at the end of a word
becomes a final sigma.
-/

namespace Tariff.Text

/-- The lower-case form of one character on its own. -/
def lowerChar (c : Char) : List Char :=
  if c.toNat < 128 then [c.toLower]
  else if c == 'İ' then ['i', '\u0307']
  else [((caseImage? lowerRuns c.toNat).map Char.ofNat).getD c]

def upperChar (c : Char) : List Char :=
  if c.toNat < 128 then [c.toUpper]
  else
    match upperSequences.lookup c.toNat with
    | some image => image.map Char.ofNat
    | none => [((caseImage? upperRuns c.toNat).map Char.ofNat).getD c]

def isCased (c : Char) : Bool := caseds.contains c

/-- Passed over when one looks for the letter before or after a sigma. -/
def isCaseIgnorable (c : Char) : Bool := caseIgnorables.contains c

/-- Whether a cased character follows, ignorable ones passed over. -/
def casedAhead (s : List Char) : Bool := (s.dropWhile isCaseIgnorable).head?.any isCased

/-- Lower case, where `afterCased` says whether a cased character stands before, ignorable ones
passed over. -/
def lowerFrom (afterCased : Bool) : List Char → List Char
  | [] => []
  | c :: cs =>
    let image :=
      if c == 'Σ' then (if afterCased && !casedAhead cs then ['ς'] else ['σ']) else lowerChar c
    image ++ lowerFrom (if isCaseIgnorable c then afterCased else isCased c) cs

def lower (s : List Char) : List Char := lowerFrom false s

def upper (s : List Char) : List Char := s.flatMap upperChar

def sameIgnoringAsciiCase (a b : String) : Bool :=
  a.toList.map Char.toLower == b.toList.map Char.toLower

end Tariff.Text
