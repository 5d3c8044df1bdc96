import Tariff.Formula.Compiled
import Tariff.Generation.Failure
import Tariff.Json.Document
import Tariff.Text.Blank

/-!
Reading the answers of the provider. An answer has to be exactly as asked for, and its formula has
to pass the gate and name nothing but the variables that the answer lists.

An answer to a batch is judged row by row. A row that does not hold is left out, and so are rows
for indices that were not asked for and all but the first good row for an index.
-/

namespace Tariff.Generation

open Tariff.Text

/-- A table with indices as keys, in ascending order, each once. -/
abbrev Indexed (α : Type) := List (Nat × α)

/-- The table with an entry; it takes the place of an earlier one of that index. -/
def Indexed.put {α : Type} (index : Nat) (a : α) : Indexed α → Indexed α
  | [] => [(index, a)]
  | (i, b) :: rest =>
    if index < i then (index, a) :: (i, b) :: rest
    else if index = i then (i, a) :: rest
    else (i, b) :: put index a rest

/-- What is taken off the confidence that the provider reports. -/
def discount : Float := 0.1

def discounted (c : Float) : Float :=
  let x := c - discount
  if x < 0 then 0 else if 1 < x then 1 else x

def isWordChar (c : Char) : Bool := c.isAlpha || c == '_'

/-- The first name in a formula that is not a variable's. -/
def unknownName? (formula : String) : Option String :=
  ((runsOf isWordChar formula.toList).map String.ofList).find?
    fun w => (Variable.ofName? w).isNone

def field (f : Field) (j : Json) : Except Failure Json :=
  match j.field? f.name with
  | some v => .ok v
  | none => .error (.schema (.missing f))

def readVariable : Json → Except Failure Variable
  | .string s =>
    match Variable.ofName? s with
    | some v => .ok v
    | none => .error (.schema (.unknownVariable s))
  | _ => .error (.schema .variableNotText)

def readFormulaText (j : Json) : Except Failure String := do
  match ← field .formula j with
  | .string s => .ok (String.ofList (trim s.toList))
  | _ => .error (.schema (.mistyped .formula))

def readListed (j : Json) : Except Failure (List Variable) := do
  match ← field .vars j with
  | .array xs => return Variable.canonical (← xs.mapM readVariable)
  | _ => .error (.schema (.mistyped .vars))

def readConfidence (j : Json) : Except Failure Float := do
  match ← field .confidence j with
  | .number n =>
    let c := n.toFloat
    if 0 ≤ c ∧ c ≤ 1 then .ok c else .error (.schema (.confidence c))
  | _ => .error (.schema (.mistyped .confidence))

def readFields (j : Json) : Except Failure Compiled := do
  let formula ← readFormulaText j
  let listed ← readListed j
  let confidence ← readConfidence j
  match j.field? "explanation" with
  | none | some (.string _) => pure ()
  | some _ => .error (.schema .explanation)
  match Formula.check formula with
  | ⟨some r, _⟩ => .error (.unsafeFormula formula (.refused r))
  | ⟨none, used⟩ =>
    match unknownName? formula with
    | some w => .error (.unsafeFormula formula (.unknownName w))
    | none =>
      if used = listed then .ok ⟨formula, used, discounted confidence, .ai⟩
      else .error (.schema (.vars listed used))

def readValue (answer : String) : Except Failure Json :=
  let cs := trim answer.toList
  if cs.isEmpty then .error .emptyAnswer
  else
    match Json.parse? (String.ofList cs) with
    | some j => .ok j
    | none => .error (.malformed (String.ofList cs))

def readSingle (answer : String) : Except Failure Compiled := do
  match ← readValue answer with
  | .object fs => readFields (.object fs)
  | _ => .error (.schema .notObject)

/-- The index of a row: a whole number, not negative. -/
def readIndex (j : Json) : Except Failure Nat :=
  match j.field? "index" with
  | some (.number (.integer n)) => if 0 ≤ n then .ok n.toNat else .error (.schema .index)
  | _ => .error (.schema .index)

def readRow : Json → Except Failure (Nat × Compiled)
  | .object fs => do
    let index ← readIndex (.object fs)
    return (index, ← readFields (.object fs))
  | _ => .error (.schema .rowNotObject)

/-- Adds a row to those that hold so far. -/
def addRow (expected : List Nat) (found : Indexed Compiled) (row : Json) : Indexed Compiled :=
  match readRow row with
  | .ok (index, c) =>
    if expected.contains index && (found.lookup index).isNone then Indexed.put index c found
    else found
  | .error _ => found

/-- Reads the answer to a batch: the rows that hold, by index. -/
def readBatch (expected : List Nat) (answer : String) : Except Failure (Indexed Compiled) := do
  match ← readValue answer with
  | .array rows => .ok (rows.foldl (addRow expected) [])
  | _ => .error (.schema .notArray)

end Tariff.Generation
