import Tariff.Chunks
import Tariff.Generation.Answer
import Tariff.Generation.InFlight
import Tariff.Generation.Request

/-!
Formulas by way of a provider. Single texts are asked for one by one. Many are asked for in batches,
and each item that its batch does not bring is asked for again by itself.
-/

namespace Tariff.Generation

open Tariff.Text

/-- What the provider makes of a request, and after how many milliseconds. -/
structure Reply where
  delay : Nat
  outcome : Except ProviderError String

/-- A provider of answers. Its calls are numbered as they start, and it may answer like requests
differently. -/
abbrev Provider := Nat → Request → Reply

def batchLimit : Nat := 100

structure Config where
  /-- how long an answer is waited for, in milliseconds -/
  timeout : Nat
  /-- items in one call -/
  batchSize : Nat
  /-- calls under way at once -/
  concurrency : Nat
  one_le_batchSize : 1 ≤ batchSize := by decide
  batchSize_le : batchSize ≤ batchLimit := by decide
  one_le_concurrency : 1 ≤ concurrency := by decide

namespace Config

def clamped (timeout batchSize concurrency : Nat) : Config where
  timeout := timeout
  batchSize := min (max batchSize 1) batchLimit
  concurrency := max concurrency 1
  one_le_batchSize := by unfold batchLimit; omega
  batchSize_le := by omega
  one_le_concurrency := by omega

def default : Config := clamped 30000 batchLimit 4

end Config

structure Generator where
  provider : Provider
  config : Config

namespace Generator

/-- The answer to a request, and after how many milliseconds the call ends. -/
def ask (g : Generator) (call : Nat) (r : Request) : Nat × Except Failure String :=
  let reply := g.provider call r
  if g.config.timeout < reply.delay then (g.config.timeout, .error (.timeout g.config.timeout))
  else
    (reply.delay,
      match reply.outcome with
      | .ok answer => if answer.toList.all isBlank then .error .emptyAnswer else .ok answer
      | .error e => .error (.provider e))

def single (g : Generator) (call : Nat) (text : String) (hint : Option String) :
    Nat × Except Failure Compiled :=
  let (time, answer) := g.ask call (singleRequest text hint)
  (time, answer.bind readSingle)

def batch (g : Generator) (call : Nat) (items : List Item) :
    Nat × Except Failure (Indexed Compiled) :=
  if batchLimit < items.length then (0, .error (.batchTooLarge items.length batchLimit))
  else if items.isEmpty then (0, .ok [])
  else
    let (time, answer) := g.ask call (batchRequest items)
    (time, answer.bind (readBatch (items.map (·.index))))

/-! ### Any number of texts -/

abbrev Results := Indexed (Except Failure Compiled)

def mergeBatch (results : Results) : Except Failure (Indexed Compiled) → Results
  | .ok found => found.foldl (fun rs (i, c) => Indexed.put i (.ok c) rs) results
  | .error _ => results

def mergeSingles (results : Results) (singles : List (Nat × Except Failure Compiled)) : Results :=
  singles.foldl (fun rs (i, r) => Indexed.put i r rs) results

def missing (items : List Item) (results : Results) : List Item :=
  items.filter fun i => (results.lookup i.index).isNone

/-- The order in which calls end that take the times given. -/
abbrev Ending := {α : Type} → List (Nat × α) → List α

/-- A bulk pass: the requests in the order in which they start, and the result for each item. -/
structure Bulk where
  calls : List Request
  results : Results

/-- The formulas of any number of texts, where calls end in a given order. -/
def allEnding (g : Generator) (ending : Ending) (items : List Item) : Bulk :=
  let parts := chunks g.config.batchSize items
  let found := (ending (parts.mapIdx g.batch)).foldl mergeBatch []
  let again := missing items found
  let singles := again.mapIdx fun k i =>
    let (time, r) := g.single (parts.length + k) i.text i.hint
    (time, i.index, r)
  { calls := parts.map batchRequest ++ again.map fun i => singleRequest i.text i.hint
    results := mergeSingles found (ending singles) }

def all (g : Generator) (items : List Item) : Bulk :=
  g.allEnding (inFlight g.config.concurrency) items

end Generator

end Tariff.Generation
