import Tariff.Chunks
import Tariff.Synthesis.Entry

/-!
Synthesis of a whole schedule. The work may be shared out; the changed entries are written to a
sink in batches of a fixed size.
-/

namespace Tariff.Synthesis

open Tariff.Adjustment (Headings)

/-- The entries that have an adjustment. -/
def ordinary (entries : List Entry) : List Entry := entries.filter (!·.isAdditionalDuty)

/-- The syntheses of all ordinary entries, in order. The entries are shared out in equal parts,
one for each worker. -/
def plan (now : Instant) (workers : Nat) (entries : List Entry) : List Synthesis :=
  let headings := Headings.ofEntries entries
  let targets := ordinary entries
  let workers := max workers 1
  let share := (targets.length + workers - 1) / workers
  (chunks share targets).flatMap (·.map (ofEntry now headings))

structure Stats where
  processed : Nat
  updated : Nat
  linked : Nat
  unresolved : Nat
  nonNtrDefaults : Nat
deriving DecidableEq, Repr

def stats (syntheses : List Synthesis) : Stats where
  processed := syntheses.length
  updated := syntheses.countP (·.changed)
  linked := syntheses.countP (·.adjustment.status == .linked)
  unresolved := syntheses.countP (·.adjustment.status == .unresolved)
  nonNtrDefaults := syntheses.countP (·.update.provenance.nonNtrDefaulted)

def batches (size : Nat) (syntheses : List Synthesis) : List (List EntryUpdate) :=
  chunks (max size 1) ((syntheses.filter (·.changed)).map (·.update))

/-- Writes the batches in order up to the first that is refused. -/
def deliver {σ ε β : Type} (write : σ → β → Except ε σ) (sink : σ) :
    List β → σ × Except ε Unit
  | [] => (sink, .ok ())
  | b :: bs =>
    match write sink b with
    | .ok sink => deliver write sink bs
    | .error e => (sink, .error e)

/-- Synthesizes all entries and writes what changed to a sink. -/
def run {σ ε : Type} (now : Instant) (size workers : Nat) (entries : List Entry)
    (write : σ → List EntryUpdate → Except ε σ) (sink : σ) : σ × Except ε Stats :=
  let syntheses := plan now workers entries
  match deliver write sink (batches size syntheses) with
  | (sink, .ok ()) => (sink, .ok (stats syntheses))
  | (sink, .error e) => (sink, .error e)

end Tariff.Synthesis
