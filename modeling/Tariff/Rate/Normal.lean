import Tariff.Text.Blank
import Tariff.Text.Case
import Tariff.Text.Scan

/-!
The normal form of a rate text: lower case, one kind of dash, single spaces, and one spelling for
each abbreviation that schedules use, so that the grammar has to know that one only.
-/

namespace Tariff.Rate

open Tariff.Text

/-- Dashes that are read as a hyphen: figure dash, en dash, em dash and minus sign. -/
def isDash (c : Char) : Bool :=
  c == '\u2012' || c == '\u2013' || c == '\u2014' || c == '\u2212'

def unifyDashes (s : List Char) : List Char := s.map fun c => if isDash c then '-' else c

def skipLiteral (s : String) (text : List Char) : List Char := (literal s text).getD text

def someBlanks (text : List Char) : Option (List Char) :=
  if text.head?.any isBlank then some (trimStart text) else none

/-- A literal that begins at a word boundary. -/
def wordStart (s : String) (before : Option Char) (text : List Char) : Option (List Char) :=
  if atBoundary before text then literal s text else none

def wholeWord (s : String) (before : Option Char) (text : List Char) : Option (List Char) :=
  (wordStart s before text).filter (atBoundary s.toList.getLast?)

/-- The words for a rate on the value: `ad val`, with or without a stop, or `ad valorem`, and the
blank behind them unless the text ends. -/
def adValorem : Pattern Unit := fun before text => do
  let rest ← literal "val" (trimStart (← wordStart "ad" before text))
  let rest := (literal "orem" rest).getD (skipLiteral "." rest)
  match rest with
  | [] => some ((), [])
  | c :: cs => if isBlank c then some ((), cs) else none

/-- The word percent written as two. -/
def perCent : Pattern Unit := fun before text => do
  let rest ← wholeWord "cent" (some ' ') (← someBlanks (← wordStart "per" before text))
  some ((), rest)

def kilograms : Pattern Unit := fun before text => do
  let rest ← wholeWord "kgs" before text <|> wholeWord "kg" before text
  some ((), skipLiteral "." rest)

def numberSign : Pattern Unit := fun before text => do
  let rest ← wordStart "no." before text
  some ((), rest)

def isStop (c : Char) : Bool := c == '.' || c == ';' || c == ','

/-- One spelling for each abbreviation, in this order. -/
def spellOut (s : List Char) : List Char :=
  numberSign.replace "number" <| kilograms.replace "kg" <| perCent.replace "percent" <|
    adValorem.replace "ad valorem " s

def normalize (raw : String) : String :=
  let text := squeeze (unifyDashes (lower raw.toList))
  String.ofList (trimEnd (dropTail isStop (trim (spellOut text))))

end Tariff.Rate
