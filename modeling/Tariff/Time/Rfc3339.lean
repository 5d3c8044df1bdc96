import Tariff.Decimal.Reader
import Tariff.Text.Blank
import Tariff.Time.Instant

/-!
Points in time as text, as in `2025-03-04T12:00:00.5Z`.

Reading allows blanks between the parts and numbers of fewer digits than are written. Writing gives
UTC, and the second with no digits behind the point, or the fewest of three, six and nine that hold
it exactly.
-/

namespace Tariff.Instant

open Tariff.Text
open Tariff.Decimal (natOfDigits)

/-- A number of one to `width` digits behind blanks, and what follows. -/
def readNumber (width : Nat) (s : List Char) : Option (Nat × List Char) :=
  let s := trimStart s
  let ds := (s.take width).takeWhile isAsciiDigit
  if ds.isEmpty then none else some (natOfDigits ds, s.drop ds.length)

def readMark (c : Char) (s : List Char) : Option (List Char) :=
  match trimStart s with
  | d :: rest => if d == c then some rest else none
  | [] => none

/-- A year: up to four digits, or a sign and any number of them. -/
def readYear (s : List Char) : Option (Int × List Char) :=
  match trimStart s with
  | '-' :: rest => do
    let ds := rest.takeWhile isAsciiDigit
    if ds.isEmpty then none else some (-(natOfDigits ds : Int), rest.drop ds.length)
  | '+' :: rest => do
    let ds := rest.takeWhile isAsciiDigit
    if ds.isEmpty then none else some (natOfDigits ds, rest.drop ds.length)
  | rest => (readNumber 4 rest).map fun (n, r) => (n, r)

def readDate (s : List Char) : Option (Date × List Char) := do
  let (year, s) ← readYear s
  let (month, s) ← readNumber 2 (← readMark '-' s)
  let (day, s) ← readNumber 2 (← readMark '-' s)
  some (⟨year, month, day⟩, s)

/-- The nanoseconds behind a point, if there is one. Digits after the ninth are passed over. -/
def readFraction (s : List Char) : Option (Nat × List Char) :=
  match s with
  | '.' :: rest =>
    let ds := rest.takeWhile isAsciiDigit
    if ds.isEmpty then none
    else
      let ns := ds.take 9
      some (natOfDigits ns * Nat.pow 10 (9 - ns.length), rest.drop ds.length)
  | _ => some (0, s)

/-- Seconds since midnight and nanoseconds. A sixtieth second is the leap second behind the one
before. -/
def readTime (s : List Char) : Option ((Nat × Nat) × List Char) := do
  let (hour, s) ← readNumber 2 s
  let (minute, s) ← readNumber 2 (← readMark ':' s)
  let (second, s) ← readNumber 2 (← readMark ':' s)
  let (nanos, s) ← readFraction s
  if 23 < hour ∨ 59 < minute ∨ 60 < second then none
  let (second, nanos) := if second = 60 then (59, nanos + nanosPerSecond) else (second, nanos)
  some ((hour * 3600 + minute * 60 + second, nanos), s)

def readPair : List Char → Option (Nat × List Char)
  | a :: b :: rest =>
    if isAsciiDigit a && isAsciiDigit b then some (natOfDigits [a, b], rest) else none
  | _ => none

/-- The distance from UTC in seconds: a letter Z, the word UTC, or a sign, hours and minutes. -/
def readOffset (s : List Char) : Option (Int × List Char) := do
  let s := trimStart s
  if (s.take 3).map Char.toUpper = "UTC".toList then some (0, s.drop 3)
  else
    match s with
    | [] => none
    | c :: rest =>
      if c == 'Z' || c == 'z' then some (0, rest)
      else if c == '+' || c == '-' || c == '\u2212' then
        let (hours, rest) ← readPair rest
        let (minutes, rest) ← readPair (rest.dropWhile fun c => c == ':' || isBlank c)
        if 59 < minutes || 23 < hours then none
        let n : Int := hours * 3600 + minutes * 60
        some (if c == '+' then n else -n, rest)
      else none

/-- Reads a date, a letter T or a blank, a time and a distance from UTC. -/
def read? (text : String) : Option Instant := do
  let (date, s) ← readDate text.toList
  match s with
  | [] => none
  | c :: s =>
    if c != 'T' && c != 't' && c != ' ' then none
    let ((second, nanos), s) ← readTime s
    let (offset, s) ← readOffset s
    if !date.isValid || !s.all isBlank then none
    let t : Instant := ⟨date.days * secondsPerDay + second - offset, nanos⟩
    if inRange t.date.year then some t else none

def padded (width n : Nat) : String :=
  let ds := (toString n).toList
  String.ofList (List.replicate (width - ds.length) '0' ++ ds)

/-- A year of four digits, or with a sign where that is not enough. -/
def yearText (y : Int) : String :=
  if 0 ≤ y ∧ y ≤ 9999 then padded 4 y.toNat
  else (if y < 0 then "-" else "+") ++ padded 4 y.natAbs

def fractionText (nanos : Nat) : String :=
  if nanos = 0 then ""
  else if nanos % 1000000 = 0 then "." ++ padded 3 (nanos / 1000000)
  else if nanos % 1000 = 0 then "." ++ padded 6 (nanos / 1000)
  else "." ++ padded 9 nanos

/-- The date and time, without the distance from UTC. -/
def clockText (t : Instant) : String :=
  let s := t.secondOfDay
  let leap := t.nanos / nanosPerSecond
  yearText t.date.year ++ "-" ++ padded 2 t.date.month ++ "-" ++ padded 2 t.date.day ++ "T"
    ++ padded 2 (s / 3600) ++ ":" ++ padded 2 (s / 60 % 60) ++ ":" ++ padded 2 (s % 60 + leap)
    ++ fractionText (t.nanos % nanosPerSecond)

/-- The text with a letter Z for UTC. -/
def render (t : Instant) : String := t.clockText ++ "Z"

def renderOffset (t : Instant) : String := t.clockText ++ "+00:00"

end Tariff.Instant
