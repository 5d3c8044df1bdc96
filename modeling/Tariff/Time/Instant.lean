/-!
Points in time, in UTC.
-/

namespace Tariff

/-- A point in time: whole seconds since the start of 1970 and the rest in nanoseconds. A rest of
a second or more stands in a leap second. -/
structure Instant where
  seconds : Int
  nanos : Nat
deriving DecidableEq, Repr

namespace Instant

/-- Microseconds since the start of 1970, rounded down. -/
def micros (t : Instant) : Int := t.seconds * 1000000 + t.nanos / 1000

/-- A date of the Gregorian calendar, also before it was introduced. -/
structure Date where
  year : Int
  month : Nat
  day : Nat
deriving DecidableEq, Repr

def isLeapYear (y : Int) : Bool := y % 4 == 0 && (y % 100 != 0 || y % 400 == 0)

def daysInMonth (y : Int) (m : Nat) : Nat :=
  if m = 2 then (if isLeapYear y then 29 else 28)
  else if m = 4 ∨ m = 6 ∨ m = 9 ∨ m = 11 then 30
  else 31

/-- The years that can be told. -/
def inRange (y : Int) : Bool := -262143 ≤ y && y ≤ 262142

def Date.isValid (d : Date) : Bool :=
  inRange d.year && 1 ≤ d.month && d.month ≤ 12 && 1 ≤ d.day && d.day ≤ daysInMonth d.year d.month

/-- Days since the start of 1970. The year is taken to start in March, so that a leap day is its
last. -/
def Date.days (d : Date) : Int :=
  let y := if d.month ≤ 2 then d.year - 1 else d.year
  let m := if d.month ≤ 2 then d.month + 9 else d.month - 3
  365 * y + y / 4 - y / 100 + y / 400 + (153 * m + 2) / 5 + d.day - 1 - 719468

def Date.ofDays (n : Int) : Date :=
  let z := n + 719468
  let era := z / 146097
  let e := (z % 146097).toNat
  let y := (e - e / 1460 + e / 36524 - e / 146096) / 365
  let r := e - (365 * y + y / 4 - y / 100)
  let m := (5 * r + 2) / 153
  let day := r - (153 * m + 2) / 5 + 1
  let month := if m < 10 then m + 3 else m - 9
  ⟨y + era * 400 + (if month ≤ 2 then 1 else 0), month, day⟩

def secondsPerDay : Int := 86400

def nanosPerSecond : Nat := 1000000000

def date (t : Instant) : Date := Date.ofDays (t.seconds / secondsPerDay)

def secondOfDay (t : Instant) : Nat := (t.seconds % secondsPerDay).toNat

end Instant

end Tariff
