import Tariff.Synthesis.Run

/-!
A synthesis as it goes on. The entries are shared out among workers, each of which looks at the
clock for each entry of its share. Updates wait until there are enough of them for a batch; a batch
that the sink refuses ends the synthesis.
-/

namespace Tariff

open Adjustment (Headings)
open Synthesis (ofEntry ordinary Stats)

def Synthesis.Stats.count (r : Stats) (x : Synthesis) : Stats where
  processed := r.processed + 1
  updated := r.updated + x.changed.toNat
  linked := r.linked + (x.adjustment.status == .linked).toNat
  unresolved := r.unresolved + (x.adjustment.status == .unresolved).toNat
  nonNtrDefaults := r.nonNtrDefaults + x.update.provenance.nonNtrDefaulted.toNat

structure Synthesizer where
  batchSize : Nat := 500
  workers : Nat := 1
  batchSize_pos : 0 < batchSize := by decide
  workers_pos : 0 < workers := by decide

/-- When a worker comes to an entry, by the numbers of the worker and of the entry in its share. -/
abbrev Clock := Nat → Nat → Instant

/-- Where batches go. A sink has a state, and may refuse a batch. -/
abbrev Sink (σ ε : Type) := List EntryUpdate → ExceptT ε (StateM σ) Unit

/-- What comes of something done with a sink in this state, and the state that it leaves. -/
def Sink.outcome {σ ε α : Type} (w : ExceptT ε (StateM σ) α) (s : σ) : Except ε α × σ := w.run.run s

namespace Synthesizer

theorem max_one_pos (n : Nat) : 0 < max n 1 := Nat.le_max_right n 1

def withBatchSize (z : Synthesizer) (n : Nat) : Synthesizer :=
  { z with batchSize := max n 1, batchSize_pos := max_one_pos n }

def withWorkers (z : Synthesizer) (n : Nat) : Synthesizer :=
  { z with workers := max n 1, workers_pos := max_one_pos n }

def work (clock : Nat → Instant) (h : Headings) (share : List Entry) : List Synthesis :=
  share.mapIdx fun i e => ofEntry (clock i) h e

/-- The syntheses of all ordinary entries. A single worker takes them as they are; of several, each
takes an equal share, and what they made is put together in the order of the shares. -/
def plan (z : Synthesizer) (clock : Clock) (entries : List Entry) : List Synthesis :=
  let headings := Headings.ofEntries entries
  let targets := ordinary entries
  if z.workers = 1 ∨ targets.length < 2 then work (clock 0) headings targets
  else
    let share := (targets.length + z.workers - 1) / z.workers
    ((chunks share targets).mapIdx fun i es => work (clock i) headings es).flatten

structure Progress where
  stats : Stats
  /-- the updates that wait for a batch -/
  pending : List EntryUpdate

variable {σ ε : Type}

/-- Takes in one synthesis, and sends a batch off if there is enough for one. -/
def advance (z : Synthesizer) (sink : Sink σ ε) (p : Progress) (x : Synthesis) :
    ExceptT ε (StateM σ) Progress := do
  let stats := p.stats.count x
  if x.changed then
    let pending := p.pending ++ [x.update]
    if z.batchSize ≤ pending.length then
      sink pending
      return ⟨stats, []⟩
    else return ⟨stats, pending⟩
  else return ⟨stats, p.pending⟩

/-- Sends off what still waits. -/
def finish (sink : Sink σ ε) (p : Progress) : ExceptT ε (StateM σ) Stats := do
  unless p.pending.isEmpty do sink p.pending
  return p.stats

/-- Synthesizes all entries and sends what changed to a sink. Room for one batch is set aside first:
an update takes less than 512 bytes, so there is room for batches of fewer than `2 ^ 54`. -/
def run (z : Synthesizer) (clock : Clock) (entries : List Entry) (sink : Sink σ ε) :
    ExceptT ε (StateM σ) Stats := do
  let p ← (z.plan clock entries).foldlM (z.advance sink) ⟨⟨0, 0, 0, 0, 0⟩, []⟩
  finish sink p

end Synthesizer

end Tariff
