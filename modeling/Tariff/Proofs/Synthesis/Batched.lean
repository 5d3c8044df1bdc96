import Tariff.Proofs.Store.Live
import Tariff.Synthesis.Synthesizer

/-!
A synthesis as it goes on, against a synthesis taken at once. However the work is shared out, the
plan is that of a single worker but for the times; and what a run sends to its sink are the changed
updates of the plan, cut into pieces, up to the first piece that the sink refuses.
-/

namespace Tariff

open Adjustment (Headings)
open Synthesis (ofEntry ordinary Stats batches deliver)

/-! ### The plan -/

namespace Synthesis

def undated (x : Synthesis) : Synthesis :=
  { x with update := { x.update with
      provenance := { x.update.provenance with synthesizedAt := none } } }

lemma undated_ofEntry (now now' : Instant) (h : Headings) (e : Entry) :
    (ofEntry now h e).undated = (ofEntry now' h e).undated := rfl

end Synthesis

namespace Synthesizer

variable (z : Synthesizer) (clock : Clock)

lemma map_undated_work (clock : Nat → Instant) (now : Instant) (h : Headings)
    (share : List Entry) :
    (work clock h share).map Synthesis.undated = share.map fun e => (ofEntry now h e).undated := by
  unfold work
  rw [map_mapIdx, ← mapIdx_eq_map]
  exact congrArg (List.mapIdx · share)
    (funext₂ fun i e => Synthesis.undated_ofEntry (clock i) now h e)

/-- The plan has, but for the times, the synthesis of each ordinary entry, in order. -/
lemma map_undated_plan (now : Instant) (entries : List Entry) :
    (z.plan clock entries).map Synthesis.undated =
      (ordinary entries).map fun e => (ofEntry now (Headings.ofEntries entries) e).undated := by
  unfold plan
  dsimp only
  split_ifs with h
  · exact map_undated_work _ now _ _
  · simp only [List.map_flatten, map_mapIdx, map_undated_work _ now]
    rw [mapIdx_eq_map, ← List.map_flatten, flatten_chunks]

/-- With one time for all entries the plan is the plan taken at once. -/
lemma plan_const (now : Instant) (entries : List Entry) :
    z.plan (fun _ _ => now) entries = Synthesis.plan now z.workers entries := by
  rw [Synthesis.plan_eq]
  unfold plan work
  dsimp only
  split_ifs with h
  · exact mapIdx_eq_map _ _
  · simp only [mapIdx_eq_map]
    rw [← List.map_flatten, flatten_chunks]
    rfl

variable {clock} in
/-- Each synthesis of a plan is that of an ordinary entry, at the time when a worker came to it. -/
lemma exists_of_mem_plan {entries : List Entry} {x : Synthesis} (h : x ∈ z.plan clock entries) :
    ∃ i j, ∃ e ∈ ordinary entries, x = ofEntry (clock i j) (Headings.ofEntries entries) e := by
  have hwork {times : Nat → Instant} {hs : Headings} {share : List Entry}
      (h : x ∈ work times hs share) : ∃ j, ∃ e ∈ share, x = ofEntry (times j) hs e := by
    obtain ⟨j, hj, rfl⟩ := List.mem_mapIdx.mp h
    exact ⟨j, _, List.getElem_mem hj, rfl⟩
  unfold plan at h
  dsimp only at h
  split_ifs at h
  · exact ⟨0, hwork h⟩
  · obtain ⟨l, hl, hx⟩ := List.mem_flatten.mp h
    obtain ⟨i, hi, rfl⟩ := List.mem_mapIdx.mp hl
    obtain ⟨j, e, he, rfl⟩ := hwork hx
    refine ⟨i, j, e, ?_, rfl⟩
    rw [← flatten_chunks _ (ordinary entries)]
    exact List.mem_flatten_of_mem (List.getElem_mem hi) he

/-! ### The loop -/

end Synthesizer

namespace Synthesis

def changes (plan : List Synthesis) : List EntryUpdate := (plan.filter (·.changed)).map (·.update)

lemma changes_cons (x : Synthesis) (plan : List Synthesis) :
    changes (x :: plan) = if x.changed then x.update :: changes plan else changes plan := by
  unfold changes
  cases h : x.changed <;> simp [h]

lemma foldl_count (r : Stats) (plan : List Synthesis) : plan.foldl Stats.count r = {
    processed := r.processed + (stats plan).processed
    updated := r.updated + (stats plan).updated
    linked := r.linked + (stats plan).linked
    unresolved := r.unresolved + (stats plan).unresolved
    nonNtrDefaults := r.nonNtrDefaults + (stats plan).nonNtrDefaults } := by
  have hadd (n m : Nat) (b : Bool) : n + b.toNat + m = n + (m + if b then 1 else 0) := by
    cases b
    · simp
    · simp; omega
  induction plan generalizing r with
  | nil => rfl
  | cons x plan ih =>
    rw [List.foldl_cons, ih]
    simp only [stats, Stats.count, List.length_cons, List.countP_cons, Stats.mk.injEq, hadd,
      and_true]
    omega

end Synthesis

namespace Synthesizer

variable {σ ε : Type} (z : Synthesizer) (clock : Clock) (sink : Sink σ ε)
variable (p : Progress) (x : Synthesis)

lemma advance_unchanged (hx : x.changed = false) :
    z.advance sink p x = pure ⟨p.stats.count x, p.pending⟩ := by
  simp [advance, hx]

lemma advance_waits (hx : x.changed = true) (hp : p.pending.length + 1 < z.batchSize) :
    z.advance sink p x = pure ⟨p.stats.count x, p.pending ++ [x.update]⟩ := by
  simp [advance, hx, Nat.not_le.mpr hp]

lemma advance_sends (hx : x.changed = true) (hp : z.batchSize ≤ p.pending.length + 1) :
    z.advance sink p x = do
      sink (p.pending ++ [x.update])
      return ⟨p.stats.count x, []⟩ := by
  simp [advance, hx, hp]

lemma finish_eq (hp : p.pending.length ≤ z.batchSize) : finish sink p = do
    forM (chunks z.batchSize p.pending) sink
    return p.stats := by
  unfold finish
  cases hpending : p.pending with
  | nil => simp [chunks]
  | cons u us =>
    rw [hpending] at hp
    simp [chunks_of_length_le (List.cons_ne_nil u us) hp]

/-- **The rest of a run** sends off what waits and what is still to come, piece by piece. Less than
a batch ever waits. -/
lemma foldlM_advance (plan : List Synthesis) (hp : p.pending.length < z.batchSize) :
    (do finish sink (← plan.foldlM (z.advance sink) p)) = (do
      forM (chunks z.batchSize (p.pending ++ Synthesis.changes plan)) sink
      return plan.foldl Stats.count p.stats) := by
  induction plan generalizing p with
  | nil =>
    rw [List.foldlM_nil, pure_bind, finish_eq z sink p (Nat.le_of_lt hp), Synthesis.changes,
      List.filter_nil, List.map_nil, List.append_nil, List.foldl_nil]
  | cons x plan ih =>
    rw [List.foldlM_cons, bind_assoc, List.foldl_cons, Synthesis.changes_cons]
    cases hx : x.changed with
    | false =>
      rw [advance_unchanged z sink p x hx, pure_bind, ih ⟨p.stats.count x, p.pending⟩ hp,
        if_neg Bool.false_ne_true]
    | true =>
      rw [if_pos rfl, ← List.singleton_append, ← List.append_assoc]
      rcases Nat.lt_or_ge (p.pending.length + 1) z.batchSize with hlt | hge
      · have hnext : (p.pending ++ [x.update]).length < z.batchSize := by simpa using hlt
        rw [advance_waits z sink p x hx hlt, pure_bind,
          ih ⟨p.stats.count x, p.pending ++ [x.update]⟩ hnext]
      · have hfull : (p.pending ++ [x.update]).length = z.batchSize := by
          rw [List.length_append, List.length_singleton]; omega
        rw [advance_sends z sink p x hx hge, chunks_append z.batchSize_pos hfull,
          List.forM_cons, bind_assoc, bind_assoc]
        refine bind_congr fun _ => ?_
        rw [pure_bind, ih ⟨p.stats.count x, []⟩ z.batchSize_pos, List.nil_append]

/-- A run sends off the changes of the plan in pieces, and brings its counters. -/
theorem run_eq (entries : List Entry) : z.run clock entries sink = do
    forM (chunks z.batchSize (Synthesis.changes (z.plan clock entries))) sink
    return Synthesis.stats (z.plan clock entries) := by
  have hstart := foldlM_advance z sink ⟨⟨0, 0, 0, 0, 0⟩, []⟩ (z.plan clock entries) z.batchSize_pos
  have hcount : (z.plan clock entries).foldl Stats.count ⟨0, 0, 0, 0, 0⟩ =
      Synthesis.stats (z.plan clock entries) := by
    rw [Synthesis.foldl_count]
    simp only [Nat.zero_add]
  unfold run
  rw [hstart, hcount, List.nil_append]

end Synthesizer

/-! ### Any sink -/

namespace Sink

variable {σ ε α β : Type} {sink : Sink σ ε} {s t u : σ} {e e' : ε} {b : List EntryUpdate}
  {bs : List (List EntryUpdate)}

lemma outcome_bind (w : ExceptT ε (StateM σ) α) (f : α → ExceptT ε (StateM σ) β) (s : σ) :
    outcome (w >>= f) s = match outcome w s with
      | (.ok a, t) => outcome (f a) t
      | (.error e, t) => (.error e, t) := by
  unfold outcome
  rw [ExceptT.run_bind, StateT.run_bind]
  rcases w.run.run s with ⟨_ | _, t⟩ <;> rfl

lemma outcome_pure (a : α) (s : σ) : outcome (pure a : ExceptT ε (StateM σ) α) s = (.ok a, s) := rfl

/-- In state `s` the sink takes the batches one after the other, and comes to state `t`. -/
inductive Takes (sink : Sink σ ε) : σ → List (List EntryUpdate) → σ → Prop where
  | nil (s : σ) : Takes sink s [] s
  | cons {s t u : σ} {b : List EntryUpdate} {bs : List (List EntryUpdate)} :
    outcome (sink b) s = (.ok ⟨⟩, t) → Takes sink t bs u → Takes sink s (b :: bs) u

/-- In state `s` the sink takes some of the batches, refuses the next one, and comes to state `t`. -/
def Refuses (sink : Sink σ ε) (s : σ) (bs : List (List EntryUpdate)) (e : ε) (t : σ) : Prop :=
  ∃ k b u, bs[k]? = some b ∧ sink.Takes s (bs.take k) u ∧ outcome (sink b) u = (.error e, t)

lemma takes_nil_iff : sink.Takes s [] t ↔ s = t := by
  constructor
  · rintro ⟨⟩
    rfl
  · rintro rfl
    exact .nil s

lemma takes_cons_iff (h : outcome (sink b) s = (.ok ⟨⟩, t)) :
    sink.Takes s (b :: bs) u ↔ sink.Takes t bs u := by
  constructor
  · rintro (- | ⟨ht, hbs⟩)
    rw [h] at ht
    cases ht
    exact hbs
  · exact .cons h

lemma not_takes_cons (h : outcome (sink b) s = (.error e, t)) : ¬sink.Takes s (b :: bs) u := by
  rintro (- | ⟨ht, -⟩)
  rw [h] at ht
  cases ht

lemma refuses_cons_iff (h : outcome (sink b) s = (.ok ⟨⟩, t)) :
    sink.Refuses s (b :: bs) e u ↔ sink.Refuses t bs e u := by
  constructor
  · rintro ⟨k, b', v, hk, htakes, hb'⟩
    cases k with
    | zero =>
      obtain rfl := takes_nil_iff.mp htakes
      cases hk
      rw [h] at hb'
      cases hb'
    | succ k => exact ⟨k, b', v, hk, (takes_cons_iff h).mp htakes, hb'⟩
  · rintro ⟨k, b', v, hk, htakes, hb'⟩
    exact ⟨k + 1, b', v, hk, (takes_cons_iff h).mpr htakes, hb'⟩

lemma refuses_cons_of_error (h : outcome (sink b) s = (.error e, t)) :
    sink.Refuses s (b :: bs) e' u ↔ e = e' ∧ t = u := by
  constructor
  · rintro ⟨k, b', v, hk, htakes, hb'⟩
    cases k with
    | zero =>
      obtain rfl := takes_nil_iff.mp htakes
      cases hk
      rw [h] at hb'
      cases hb'
      exact ⟨rfl, rfl⟩
    | succ k => exact absurd htakes (not_takes_cons h)
  · rintro ⟨rfl, rfl⟩
    exact ⟨0, b, s, rfl, .nil s, h⟩

variable (sink) in
lemma outcome_forM (bs : List (List EntryUpdate)) (s : σ) :
    (∀ t, outcome (forM bs sink) s = (.ok ⟨⟩, t) ↔ sink.Takes s bs t) ∧
      ∀ e t, outcome (forM bs sink) s = (.error e, t) ↔ sink.Refuses s bs e t := by
  induction bs generalizing s with
  | nil =>
    have hnil : outcome (forM [] sink) s = (.ok ⟨⟩, s) := rfl
    rw [hnil]
    constructor
    · intro t
      simp [takes_nil_iff]
    · rintro e t
      simp [Refuses]
  | cons b bs ih =>
    rw [List.forM_cons, outcome_bind]
    rcases h : outcome (sink b) s with ⟨_ | _, u⟩
    · simp [not_takes_cons h, refuses_cons_of_error h]
    · simp only [ih, takes_cons_iff h, refuses_cons_iff h, implies_true, and_self]

end Sink

/-! ### One time for all entries -/

section OneTime

variable {σ ε : Type} (z : Synthesizer) (now : Instant)

/-- The sink that a refused batch leaves as it is. -/
def Sink.ofWrite (write : σ → List EntryUpdate → Except ε σ) : Sink σ ε := fun b =>
  ExceptT.mk fun s =>
    match write s b with
    | .ok t => (.ok ⟨⟩, t)
    | .error e => (.error e, s)

lemma Sink.outcome_ofWrite (write : σ → List EntryUpdate → Except ε σ)
    (bs : List (List EntryUpdate)) (s : σ) :
    outcome (forM bs (ofWrite write)) s = (deliver write s bs).swap := by
  induction bs generalizing s with
  | nil => rfl
  | cons b bs ih =>
    have hb : outcome (ofWrite write b) s = match write s b with
        | .ok t => (.ok ⟨⟩, t)
        | .error e => (.error e, s) := rfl
    rw [List.forM_cons, outcome_bind, hb]
    unfold deliver
    cases write s b with
    | ok t => exact ih t
    | error e => rfl

lemma Synthesizer.batches_eq (plan : List Synthesis) :
    batches z.batchSize plan = chunks z.batchSize (Synthesis.changes plan) := by
  unfold batches
  rw [Nat.max_eq_left z.batchSize_pos]
  rfl

/-- A run at one time does what the synthesis taken at once does. -/
theorem Synthesizer.outcome_run_const (entries : List Entry)
    (write : σ → List EntryUpdate → Except ε σ) (s : σ) :
    Sink.outcome (z.run (fun _ _ => now) entries (Sink.ofWrite write)) s =
      (Synthesis.run now z.batchSize z.workers entries write s).swap := by
  rw [run_eq, Sink.outcome_bind, Sink.outcome_ofWrite, plan_const, ← batches_eq]
  unfold Synthesis.run
  dsimp only
  rcases deliver write s (batches z.batchSize (Synthesis.plan now z.workers entries)) with
    ⟨t, _ | _⟩ <;> rfl

theorem LiveStore.synthesize_eq_run (batchSize workers : Nat) :
    LiveStore.synthesize now batchSize workers = (do
      let s ← get
      ((({} : Synthesizer).withBatchSize batchSize).withWorkers workers).run (fun _ _ => now)
        s.entries writeBatch) := by
  set z := (({} : Synthesizer).withBatchSize batchSize).withWorkers workers
  have hsize (plan : List Synthesis) :
      Synthesis.batches z.batchSize plan = Synthesis.batches batchSize plan := z.batches_eq plan
  unfold LiveStore.synthesize
  refine bind_congr fun s => ?_
  rw [z.run_eq, z.plan_const, ← z.batches_eq, Synthesis.plan_eq, Synthesis.plan_eq, hsize]

end OneTime

/-! ### Batches -/

/-- Updates in batches: in their order, all batches of the full size but for the last. -/
structure Batched (size : Nat) (us : List EntryUpdate) (bs : List (List EntryUpdate)) : Prop where
  flatten : bs.flatten = us
  full : ∀ b ∈ bs.dropLast, b.length = size
  last : ∀ b ∈ bs.getLast?, b ≠ [] ∧ b.length ≤ size

lemma batched_chunks {size : Nat} (hs : 1 ≤ size) (us : List EntryUpdate) :
    Batched size us (chunks size us) where
  flatten := flatten_chunks size us
  full _ := length_of_mem_dropLast_chunks hs
  last b hb := by
    obtain ⟨hne, hle⟩ := length_of_mem_chunks hs (List.mem_of_getLast? hb)
    exact ⟨List.ne_nil_of_length_pos hne, hle⟩

lemma Synthesizer.outcome_run {σ ε : Type} (z : Synthesizer) (clock : Clock) (sink : Sink σ ε)
    (entries : List Entry) (s : σ) :
    (∀ r t, Sink.outcome (z.run clock entries sink) s = (.ok r, t) ↔
      r = Synthesis.stats (z.plan clock entries) ∧
        sink.Takes s (chunks z.batchSize (Synthesis.changes (z.plan clock entries))) t) ∧
    ∀ e t, Sink.outcome (z.run clock entries sink) s = (.error e, t) ↔
      sink.Refuses s (chunks z.batchSize (Synthesis.changes (z.plan clock entries))) e t := by
  obtain ⟨htakes, hrefuses⟩ :=
    sink.outcome_forM (chunks z.batchSize (Synthesis.changes (z.plan clock entries))) s
  rw [run_eq, Sink.outcome_bind]
  rcases h : Sink.outcome (forM _ sink) s with ⟨e' | _, u⟩
  all_goals
    rw [h] at htakes hrefuses
    simp [← htakes, ← hrefuses, Sink.outcome_pure, eq_comm]

/-- **A synthesis that is shared out and sent off in batches** comes to the synthesis of one entry
after the other. The plan is, but for the times, that of a single worker. There are batches of its
changes such that, whatever the sink, either it takes them all and the run brings the counters of
the plan, or the run ends with the refusal of one of them when those before it were taken. -/
theorem Synthesizer.run_batched (size workers : Nat) (clock : Clock) (entries : List Entry) :
    let z := (({} : Synthesizer).withBatchSize size).withWorkers workers
    let plan := z.plan clock entries
    (∀ now, plan.map Synthesis.undated =
      (ordinary entries).map fun e => (ofEntry now (Headings.ofEntries entries) e).undated) ∧
    (∀ clock', plan.map Synthesis.undated =
      ((z.withWorkers 1).plan clock' entries).map Synthesis.undated) ∧
    ∃ bs, Batched (max size 1) (Synthesis.changes plan) bs ∧
      ∀ (σ ε : Type) (sink : Sink σ ε) (s : σ),
        (∀ r t, Sink.outcome (z.run clock entries sink) s = (.ok r, t) ↔
          r = Synthesis.stats plan ∧ sink.Takes s bs t) ∧
        ∀ e t, Sink.outcome (z.run clock entries sink) s = (.error e, t) ↔
          sink.Refuses s bs e t := by
  intro z plan
  have hplan (now : Instant) := z.map_undated_plan clock now entries
  refine ⟨hplan, fun clock' => ?_, chunks z.batchSize (Synthesis.changes plan),
    batched_chunks z.batchSize_pos _, fun σ ε sink s => ?_⟩
  · rw [hplan ⟨0, 0⟩, (z.withWorkers 1).map_undated_plan clock' ⟨0, 0⟩]
  · exact z.outcome_run clock sink entries s

end Tariff
