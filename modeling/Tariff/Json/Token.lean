import Tariff.Json.Numeral

/-!
The tokens of a JSON text.

A text can be well formed and still hold a number that is too large or a string with half of a
surrogate pair. Such a token has no value, which matters only where the value is wanted.
-/

namespace Tariff.Json

inductive Token where
  | null
  | bool (b : Bool)
  | number (n : Option Number)
  | string (s : Option String)
  | beginArray
  | endArray
  | beginObject
  | endObject
  | colon
  | comma

/-- A character of a string as written: itself, or a code unit of sixteen bits. -/
inductive Piece where
  | char (c : Char)
  | unit (n : Nat)
deriving DecidableEq, Repr

def hexValue? (c : Char) : Option Nat :=
  if '0' ≤ c && c ≤ '9' then some (c.toNat - '0'.toNat)
  else if 'a' ≤ c && c ≤ 'f' then some (c.toNat - 'a'.toNat + 10)
  else if 'A' ≤ c && c ≤ 'F' then some (c.toNat - 'A'.toNat + 10)
  else none

/-- Four digits in base sixteen. -/
def unit? (a b c d : Char) : Option Nat := do
  some (((← hexValue? a) * 16 + (← hexValue? b)) * 256 + (← hexValue? c) * 16 + (← hexValue? d))

/-- What one letter behind a backslash stands for. -/
def unescape? : Char → Option Char
  | '"' => some '"'
  | '\\' => some '\\'
  | '/' => some '/'
  | 'b' => some '\x08'
  | 'f' => some '\x0c'
  | 'n' => some '\n'
  | 'r' => some '\r'
  | 't' => some '\t'
  | _ => none

/-- The pieces of a string up to its closing quote, and how many characters they take with the
quote. -/
def takeString : List Char → Option (List Piece × Nat)
  | [] => none
  | '"' :: _ => some ([], 1)
  | '\\' :: 'u' :: a :: b :: c :: d :: cs => do
    let n ← unit? a b c d
    (takeString cs).map fun (ps, k) => (.unit n :: ps, k + 6)
  | '\\' :: c :: cs => do
    let c ← unescape? c
    (takeString cs).map fun (ps, k) => (.char c :: ps, k + 2)
  | c :: cs =>
    if c.toNat < 32 || c == '\\' then none
    else (takeString cs).map fun (ps, k) => (.char c :: ps, k + 1)

def isHighSurrogate (n : Nat) : Bool := 0xD800 ≤ n && n < 0xDC00

def isLowSurrogate (n : Nat) : Bool := 0xDC00 ≤ n && n < 0xE000

/-- The text that the pieces spell; none when half of a surrogate pair stands alone. -/
def spell? : List Piece → Option (List Char)
  | [] => some []
  | .char c :: ps => (spell? ps).map (c :: ·)
  | .unit m :: .unit n :: ps =>
    if isHighSurrogate m then
      if isLowSurrogate n then
        (spell? ps).map (Char.ofNat (0x10000 + (m - 0xD800) * 0x400 + (n - 0xDC00)) :: ·)
      else none
    else if isLowSurrogate m then none
    else (spell? (.unit n :: ps)).map (Char.ofNat m :: ·)
  | .unit m :: ps =>
    if isHighSurrogate m || isLowSurrogate m then none
    else (spell? ps).map (Char.ofNat m :: ·)

/-- One token at the start of a text, and how many characters it takes. -/
def takeToken (c : Char) (cs : List Char) : Option (Token × Nat) :=
  match c with
  | '[' => some (.beginArray, 1)
  | ']' => some (.endArray, 1)
  | '\x7b' => some (.beginObject, 1)
  | '\x7d' => some (.endObject, 1)
  | ':' => some (.colon, 1)
  | ',' => some (.comma, 1)
  | '"' => (takeString cs).map fun (ps, k) => (.string ((spell? ps).map String.ofList), k + 1)
  | 'n' => if "ull".toList.isPrefixOf cs then some (.null, 4) else none
  | 't' => if "rue".toList.isPrefixOf cs then some (.bool true, 4) else none
  | 'f' => if "alse".toList.isPrefixOf cs then some (.bool false, 5) else none
  | _ => (takeNumeral (c :: cs)).map fun (l, k) => (.number l.value?, k)

def isSpace (c : Char) : Bool := c == ' ' || c == '\t' || c == '\n' || c == '\r'

/-- The tokens of a text; `skip` characters still belong to the last one. -/
def tokensFrom : Nat → List Char → Option (List Token)
  | _, [] => some []
  | skip + 1, _ :: cs => tokensFrom skip cs
  | 0, c :: cs =>
    if isSpace c then tokensFrom 0 cs
    else do
      let (t, k) ← takeToken c cs
      (tokensFrom (k - 1) cs).map (t :: ·)

def tokens (text : List Char) : Option (List Token) := tokensFrom 0 text

end Tariff.Json
