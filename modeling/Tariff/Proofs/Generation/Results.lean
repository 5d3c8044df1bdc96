import Tariff.Generation.Generator
import Tariff.Proofs.Generation.Answers
import Tariff.Proofs.Generation.InFlight

/-!
The formulas that a generator brings. Whatever the provider answers, and in whatever order the
calls end, each of them was read off the fields of an answer; what holds of every formula that is
so read holds of all results.
-/

namespace Tariff.Generation

/-! ### Answers -/

def Readable (P : Compiled → Prop) : Prop := ∀ j c, readFields j = .ok c → P c

/-- The formula of an answer is marked as generated, and its certainty is what the answer reports,
less the discount. -/
lemma readable_discounted :
    Readable fun c => c.method = .ai ∧
      ∃ j x, readConfidence j = .ok x ∧ c.confidence = discounted x := by
  intro j c h
  obtain ⟨-, -, -, hmethod, x, hx, hc⟩ := vetted_of_readFields h
  exact ⟨hmethod, j, x, hx, hc⟩

variable {P : Compiled → Prop}

lemma Readable.accepts (hP : Readable P) {answer : String} {c : Compiled} (h : Accepts answer c) :
    P c := by
  obtain ⟨j, -, h⟩ := h.exists_fields
  exact hP j c h

/-! ### Bulk passes -/

lemma Readable.single (hP : Readable P) {g : Generator} {call : Nat} {text : String}
    {hint : Option String} {time : Nat} {c : Compiled}
    (h : g.single call text hint = (time, .ok c)) : P c := by
  obtain ⟨answer, -, h⟩ := bind_eq_ok.mp (congrArg Prod.snd h)
  exact hP.accepts (.single h)

lemma Readable.batch (hP : Readable P) {g : Generator} {call : Nat} {items : List Item}
    {time : Nat} {found : Indexed Compiled} (h : g.batch call items = (time, .ok found)) :
    ∀ p ∈ found, P p.2 := by
  unfold Generator.batch at h
  split_ifs at h
  · cases h
  · cases h
    simp
  · obtain ⟨answer, -, h⟩ := bind_eq_ok.mp (congrArg Prod.snd h)
    exact fun p hp => hP.accepts (.row h hp)

def Results.All (P : Compiled → Prop) (results : Generator.Results) : Prop :=
  ∀ i c, (i, .ok c) ∈ results → P c

lemma Results.All.put {results : Generator.Results} (hr : Results.All P results) {i : Nat}
    {r : Except Failure Compiled} (h : ∀ c, r = .ok c → P c) :
    Results.All P (Indexed.put i r results) := by
  intro j c hm
  rcases Indexed.mem_put hm with heq | hm
  · exact h c (congrArg Prod.snd heq).symm
  · exact hr j c hm

lemma Results.All.mergeBatch {results : Generator.Results} (hr : Results.All P results)
    {b : Except Failure (Indexed Compiled)} (h : ∀ found, b = .ok found → ∀ p ∈ found, P p.2) :
    Results.All P (Generator.mergeBatch results b) := by
  cases b with
  | error f => exact hr
  | ok found =>
    replace h := h found rfl
    unfold Generator.mergeBatch
    dsimp only
    induction found generalizing results with
    | nil => exact hr
    | cons p found ih =>
      rw [List.forall_mem_cons] at h
      refine ih (hr.put fun c hc => ?_) h.2
      cases hc
      exact h.1

/-- **What a bulk pass brings was read off answers**: a property of all formulas that can be read
off the fields of an answer is one of all formulas among the results. -/
theorem Readable.all (hP : Readable P) (g : Generator) (items : List Item) :
    Results.All P (g.all items).results := by
  unfold Generator.all Generator.allEnding Generator.mergeSingles
  dsimp only
  set parts := chunks g.config.batchSize items
  have hfound : Results.All P ((inFlight g.config.concurrency (parts.mapIdx g.batch)).foldl
      Generator.mergeBatch []) := by
    refine List.foldlRecOn _ _ (fun i c hm => absurd hm List.not_mem_nil) fun results hr b hb => ?_
    obtain ⟨t, hb⟩ := exists_of_mem_inFlight hb
    obtain ⟨k, hk, hb⟩ := List.mem_mapIdx.mp hb
    exact hr.mergeBatch fun found hf => hP.batch (hb.trans (by rw [hf]))
  refine List.foldlRecOn _ _ hfound fun results hr p hp => ?_
  obtain ⟨t, hp⟩ := exists_of_mem_inFlight hp
  obtain ⟨k, hk, hp⟩ := List.mem_mapIdx.mp hp
  rw [Prod.mk.injEq] at hp
  obtain ⟨-, rfl⟩ := hp
  exact hr.put fun c hc => hP.single (Prod.ext rfl hc)

end Tariff.Generation
