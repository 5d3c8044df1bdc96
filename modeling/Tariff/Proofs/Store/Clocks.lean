import Tariff.Proofs.Synthesis.Batched
import Tariff.Store.Session

/-!
Syntheses whose workers look at the clock for each entry. Whatever times they see, all updates are
written, and a store comes to what a synthesis at one time brings, but for the times that it notes.
-/

namespace Tariff

open Adjustment (Headings)
open Synthesis (ofEntry ordinary outcomes changes stats)

variable (s : Store) (z : Synthesizer) (clock : Clock) (now : Instant)

/-! ### Without times -/

def EntryUpdate.undated (u : EntryUpdate) : EntryUpdate :=
  { u with provenance := { u.provenance with synthesizedAt := none } }

/-- The entry without the time of its last synthesis. -/
def Entry.undated (e : Entry) : Entry :=
  { e with provenance := e.provenance.map ({ · with synthesizedAt := none }) }

def Store.undated : Store := ⟨s.entries.map Entry.undated, s.batches⟩

lemma Entry.undated_applySynthesis (e : Entry) (u : EntryUpdate) :
    (e.applySynthesis u).undated = e.undated.applySynthesis u.undated := rfl

namespace Synthesis

lemma changes_undated (plan : List Synthesis) :
    changes (plan.map undated) = (changes plan).map EntryUpdate.undated := by
  unfold changes
  rw [List.filter_map, List.map_map, List.map_map]
  rfl

lemma stats_undated (plan : List Synthesis) : stats (plan.map undated) = stats plan := by
  unfold stats
  simp only [List.length_map, List.countP_map]
  rfl

end Synthesis

namespace Synthesizer

lemma map_undated_plan_outcomes (es : List Entry) :
    (z.plan clock es).map Synthesis.undated = (outcomes now es).map Synthesis.undated := by
  rw [z.map_undated_plan clock now, outcomes, List.map_map]
  rfl

lemma stats_plan (es : List Entry) : stats (z.plan clock es) = stats (outcomes now es) := by
  rw [← Synthesis.stats_undated, z.map_undated_plan_outcomes clock now, Synthesis.stats_undated]

lemma map_undated_changes (es : List Entry) :
    (changes (z.plan clock es)).map EntryUpdate.undated =
      (Synthesis.updates now es).map EntryUpdate.undated := by
  rw [← Synthesis.changes_undated, z.map_undated_plan_outcomes clock now, Synthesis.changes_undated]
  rfl

end Synthesizer

namespace Store

/-- Times are not looked at where an update is made. -/
lemma map_undated_writeAt (es : List Entry) (us : List (Nat × EntryUpdate)) :
    (writeAt Entry.applySynthesis es us).map Entry.undated =
      writeAt Entry.applySynthesis (es.map Entry.undated)
        (us.map fun p => (p.1, p.2.undated)) := by
  induction us generalizing es with
  | nil => rfl
  | cons p us ih =>
    have hmodify : (es.modify p.1 (·.applySynthesis p.2)).map Entry.undated =
        (es.map Entry.undated).modify p.1 (·.applySynthesis p.2.undated) := by
      refine List.ext_getElem? fun i => ?_
      simp only [List.getElem?_map, List.getElem?_modify]
      cases es[i]? with
      | none => rfl
      | some e => by_cases h : p.1 = i <;> simp [h, Entry.undated_applySynthesis]
    exact (ih _).trans (congrArg (writeAt _ · _) hmodify)

lemma map_undated_addressed (es : List Entry) (us : List EntryUpdate) :
    (addressed (·.code) es us).map (fun p => (p.1, p.2.undated)) =
      addressed (·.code) es (us.map EntryUpdate.undated) := by
  unfold addressed
  rw [List.map_map, List.map_map]
  rfl

/-! ### A store -/

/-- Synthesizes all entries, at the times that the workers see, and writes what changed. -/
def synthesizeBy : Store × Except StoreError Synthesis.Stats :=
  (Sink.outcome (z.run clock s.entries (Sink.ofWrite writeBatch)) s).swap

lemma synthesizeBy_eq_deliver : s.synthesizeBy z clock =
    match Synthesis.deliver writeBatch s
      (chunks z.batchSize (changes (z.plan clock s.entries))) with
    | (t, .ok _) => (t, .ok (stats (z.plan clock s.entries)))
    | (t, .error e) => (t, .error e) := by
  unfold synthesizeBy
  rw [z.run_eq, Sink.outcome_bind, Sink.outcome_ofWrite]
  rcases Synthesis.deliver writeBatch s
    (chunks z.batchSize (changes (z.plan clock s.entries))) with ⟨t, _ | _⟩ <;> rfl

/-- **A synthesis writes all its updates**, at whatever times its workers come to the entries. -/
theorem synthesizeBy_eq : s.synthesizeBy z clock =
    (⟨writeAt Entry.applySynthesis s.entries
        (addressed (·.code) s.entries (changes (z.plan clock s.entries))),
      s.batches + (chunks z.batchSize (changes (z.plan clock s.entries))).length⟩,
      .ok (stats (z.plan clock s.entries))) := by
  have hadmits : ∀ b ∈ chunks z.batchSize (changes (z.plan clock s.entries)), ∀ u ∈ b,
      s.Admits u.code u.adjusted := by
    intro b hb u hu
    have hu : u ∈ changes (z.plan clock s.entries) := by
      rw [← flatten_chunks z.batchSize (changes _)]
      exact List.mem_flatten_of_mem hb hu
    obtain ⟨x, hx, rfl⟩ := List.mem_map.mp hu
    obtain ⟨i, j, e, he, rfl⟩ := z.exists_of_mem_plan (List.mem_filter.mp hx).1
    exact ⟨Adjustment.refusal?_adjusted e _ _, e, (List.mem_filter.mp he).1, rfl⟩
  rw [synthesizeBy_eq_deliver, deliver_eq hadmits, flatten_chunks]

/-- **The clock does not matter** but for the times that are noted: a synthesis brings the same
counters as one at a single time, writes as many batches, and leaves the same entries. -/
theorem synthesizeBy_undated :
    (s.synthesizeBy z clock).2 = (s.synthesize now z.batchSize z.workers).2 ∧
      (s.synthesizeBy z clock).1.undated = (s.synthesize now z.batchSize z.workers).1.undated := by
  have hchanges := z.map_undated_changes clock now s.entries
  have hbatches : (chunks z.batchSize (changes (z.plan clock s.entries))).length =
      (Synthesis.batches z.batchSize (outcomes now s.entries)).length := by
    have hchunks := congrArg (fun us => (chunks z.batchSize us).length) hchanges
    simp only [chunks_map, List.length_map] at hchunks
    rw [z.batches_eq, hchunks]
    rfl
  have hentries : (writeAt Entry.applySynthesis s.entries
      (addressed (·.code) s.entries (changes (z.plan clock s.entries)))).map Entry.undated =
      (s.synthesized now).map Entry.undated := by
    unfold synthesized
    rw [map_undated_writeAt, map_undated_writeAt, map_undated_addressed, map_undated_addressed,
      hchanges]
  rw [synthesizeBy_eq, synthesize_eq, z.stats_plan clock now]
  refine ⟨rfl, ?_⟩
  unfold undated
  rw [hentries, hbatches]

theorem synthesize_eq_synthesizeBy (size workers : Nat) :
    s.synthesize now size workers =
      s.synthesizeBy ((({} : Synthesizer).withBatchSize size).withWorkers workers)
        fun _ _ => now := by
  set z := (({} : Synthesizer).withBatchSize size).withWorkers workers
  have hsize (plan : List Synthesis) :
      Synthesis.batches z.batchSize plan = Synthesis.batches size plan := z.batches_eq plan
  unfold synthesizeBy
  rw [z.outcome_run_const now, Prod.swap_swap]
  unfold synthesize Synthesis.run
  simp only [Synthesis.plan_eq, hsize]

end Store

namespace LiveStore

lemma perform_synthesizeBy (s : LiveStore) :
    s.perform (synthesizeBy z clock) = s.perform (z.run clock s.entries writeBatch) :=
  perform_bind_ok s.perform_get

/-- A store that is written to in place is synthesized likewise. -/
theorem shown_synthesizeBy (s : LiveStore) :
    s.shown (synthesizeBy z clock) = (s.toStore.synthesizeBy z clock).swap := by
  have hentries : s.toStore.entries = s.entries := rfl
  have hshown : s.shown (synthesizeBy z clock) = s.shown (z.run clock s.entries writeBatch) :=
    s.shown_get_bind _
  rw [hshown, z.run_eq, shown_batches_bind, Store.synthesizeBy_eq_deliver, hentries]
  rcases Synthesis.deliver Store.writeBatch s.toStore
    (chunks z.batchSize (changes (z.plan clock s.entries))) with ⟨t, _ | _⟩ <;> rfl

end LiveStore

end Tariff
