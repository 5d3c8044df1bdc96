import Tariff.Compilation.Compiler
import Tariff.Schedule.Entry

/-!
Compiling both rate columns of every entry. First comes what the grammar knows. Of what is left,
equal normal forms with equal units share one item, and the generator is asked for all items at
once. A column that fails is reported and stops nothing; only a formula that cannot be written
stops the program, before the generator is asked for anything.
-/

namespace Tariff.Compilation

open Tariff.Generation

/-- A rate column with a text. -/
structure Cell where
  code : String
  column : Column
  text : String
  unit : Option String
deriving DecidableEq

/-- Why the program stops at a cell, if it does. -/
def Cell.fault? (c : Cell) : Option Formula.Fault := (Rate.compile c.text c.unit).fault?

structure CellFailure where
  cell : Cell
  failure : Failure

structure Report where
  updates : List FormulaUpdate
  failures : List CellFailure
  /-- how many columns have no text -/
  skipped : Nat

def Report.count (r : Report) (m : Method) : Nat := r.updates.countP (·.compiled.method == m)

def cellsOf (e : Entry) : List Cell :=
  Column.all.filterMap fun c => (e.rate c).text.map fun text => ⟨e.code, c, text, e.unit⟩

def cells (entries : List Entry) : List Cell := entries.flatMap cellsOf

/-- How many columns have no text. -/
def blanks (entries : List Entry) : Nat :=
  (entries.flatMap fun e => Column.all.filter fun c => (e.rate c).text.isNone).length

/-- What an unresolved cell is asked for by: the normal form of its text, and its unit. -/
abbrev Key := String × Option String

/-- The cells that the grammar knows, each with its formula or why that is not trusted. -/
def settled (cs : List Cell) : List (Cell × Except Failure Compiled) :=
  cs.filterMap fun c =>
    match Rate.compile c.text c.unit with
    | .compiled f => some (c, gated f)
    | _ => none

/-- The cells that the grammar does not know, each with its key. -/
def unresolved (cs : List Cell) : List (Cell × Key) :=
  cs.filterMap fun c =>
    match Rate.compile c.text c.unit with
    | .unresolved normal => some (c, normal, c.unit)
    | _ => none

/-- The keys in the order in which they first occur. -/
def keysOf (pending : List (Cell × Key)) : List Key := (pending.map (·.2)).eraseDups

def itemsOf (keys : List Key) : List Item := keys.mapIdx fun i (text, hint) => ⟨i, text, hint⟩

def answerFor (keys : List Key) (results : Generator.Results) (k : Key) :
    Except Failure Compiled :=
  match results.lookup (keys.idxOf k) with
  | some r => r.bind gated
  | none => .error .emptyAnswer

def updatesOf (now : Option Instant) (answers : List (Cell × Except Failure Compiled)) :
    List FormulaUpdate :=
  answers.filterMap fun (c, a) => a.toOption.map fun f => ⟨c.code, c.column, f, now⟩

def failuresOf (answers : List (Cell × Except Failure Compiled)) : List CellFailure :=
  answers.filterMap fun (c, a) =>
    match a with
    | .ok _ => none
    | .error f => some ⟨c, f⟩

/-- What a pass brings that does not stop, and the requests that it takes. -/
def Compiler.answer (c : Compiler) (now : Option Instant) (entries : List Entry) :
    List Request × Report :=
  let cs := cells entries
  let pending := unresolved cs
  let keys := keysOf pending
  let (calls, answers) :=
    match c.generator with
    | some g =>
      let bulk := g.all (itemsOf keys)
      (bulk.calls, pending.map fun (c, k) => (c, answerFor keys bulk.results k))
    | none => ([], pending.map fun (c, _) => (c, .error .noProvider))
  let answers := settled cs ++ answers
  (calls, ⟨updatesOf now answers, failuresOf answers, blanks entries⟩)

/-- Compiles both rate columns of every entry, or stops at the first that cannot be written. -/
def Compiler.pass (c : Compiler) (now : Option Instant) (entries : List Entry) :
    Except Formula.Fault (List Request × Report) :=
  match (cells entries).findSome? Cell.fault? with
  | none => .ok (c.answer now entries)
  | some f => .error f

end Tariff.Compilation
