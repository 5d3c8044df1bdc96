import Tariff.Text.CodePoints
import Tariff.Text.Runs

/-!
Blanks: the characters with the property White_Space, and the operations that drop or join them.
-/

namespace Tariff.Text

/-- The characters with the property White_Space beyond ASCII. -/
def wideBlanks : CodePoints := [
  (0x85, 0x85), (0xA0, 0xA0), (0x1680, 0x1680), (0x2000, 0x200A), (0x2028, 0x2029),
  (0x202F, 0x202F), (0x205F, 0x205F), (0x3000, 0x3000)]

def isBlank (c : Char) : Bool :=
  if c.toNat < 128 then c == ' ' || ('\t' ≤ c && c ≤ '\r') else wideBlanks.contains c

def trimStart (s : List Char) : List Char := s.dropWhile isBlank

def trimEnd (s : List Char) : List Char := dropTail isBlank s

def trim (s : List Char) : List Char := trimEnd (trimStart s)

def pieces (s : List Char) : List (List Char) := runsOf (!isBlank ·) s

/-- The text without blanks at its ends, and one space for each run of blanks inside. -/
def squeeze (s : List Char) : List Char := [' '].intercalate (pieces s)

end Tariff.Text
