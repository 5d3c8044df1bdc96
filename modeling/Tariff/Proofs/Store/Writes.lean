import Tariff.Proofs.Adjustment.Exits
import Tariff.Proofs.Lists
import Tariff.Proofs.Store.Places

/-!
What the writes of a store do. Updates that pass the gate and name entries of the store are all
written, each to the entry that its code names; a synthesis only makes such updates, so it never
fails, and what it writes does not depend on how the work is shared out or cut into batches.
-/

namespace Tariff

open Synthesis (deliver ordinary plan stats)
open Adjustment (Headings)

variable {υ : Type}

@[simp] lemma Entry.code_setRate (e : Entry) (c : Column) (r : ColumnRate) :
    (e.setRate c r).code = e.code := by
  cases c <;> rfl

@[simp] lemma Entry.code_applyFormula (e : Entry) (u : FormulaUpdate) :
    (e.applyFormula u).code = e.code :=
  e.code_setRate _ _

@[simp] lemma Entry.code_applySynthesis (e : Entry) (u : EntryUpdate) :
    (e.applySynthesis u).code = e.code := rfl

/-! ### Adjusted formulas and the gate -/

lemma Adjustment.refusal?_adjusted (e : Entry) (codes : List String) (h : Headings) :
    (Adjustment.ofEntry e codes h).adjusted.bind Formula.refusal? = none := by
  have hexit := Adjustment.exit_ofEntry e codes h
  generalize Adjustment.ofEntry e codes h = a at hexit ⊢
  cases hexit with
  | noLinks | notSelected | noBase | baseRefused | adjustedRefused => rfl
  | adjusted _ _ _ _ hadjusted => exact hadjusted

namespace Synthesis

def outcomes (now : Instant) (es : List Entry) : List Synthesis :=
  (ordinary es).map (ofEntry now (Headings.ofEntries es))

/-- The work of a plan may be shared out in any way. -/
lemma plan_eq (now : Instant) (workers : Nat) (es : List Entry) :
    plan now workers es = outcomes now es := by
  unfold plan outcomes
  dsimp only
  rw [List.flatMap_def, ← List.map_flatten, flatten_chunks]

def updates (now : Instant) (es : List Entry) : List EntryUpdate :=
  ((outcomes now es).filter (·.changed)).map (·.update)

lemma flatten_batches (now : Instant) (size : Nat) (es : List Entry) :
    (batches size (outcomes now es)).flatten = updates now es :=
  flatten_chunks _ _

lemma exists_of_mem_updates {now : Instant} {es : List Entry} {u : EntryUpdate}
    (h : u ∈ updates now es) : ∃ e ∈ ordinary es,
      (ofEntry now (Headings.ofEntries es) e).changed = true ∧
        u = (ofEntry now (Headings.ofEntries es) e).update := by
  obtain ⟨x, hx, rfl⟩ := List.mem_map.mp h
  obtain ⟨hx, hc⟩ := List.mem_filter.mp hx
  obtain ⟨e, he, rfl⟩ := List.mem_map.mp hx
  exact ⟨e, he, hc, rfl⟩

lemma filter_updates (now : Instant) (es : List Entry) (code : String) :
    (updates now es).filter (·.code = code) =
      ((((ordinary es).filter (·.code = code)).map (ofEntry now (Headings.ofEntries es))).filter
        (·.changed)).map (·.update) := by
  unfold updates outcomes
  rw [List.filter_map, List.filter_filter, List.filter_map, List.filter_map, List.filter_filter]
  refine congrArg _ (congrArg _ (List.filter_congr fun e _ => ?_))
  exact Bool.and_comm _ _

end Synthesis

namespace Store

def Admits (s : Store) (code : String) (formula : Option String) : Prop :=
  formula.bind Formula.refusal? = none ∧ ∃ e ∈ s.entries, e.code = code

lemma Admits.target_eq {s : Store} {code : String} {formula : Option String}
    (h : s.Admits code formula) :
    s.target code formula = .ok ((lastPlace? code s.entries).getD 0) := by
  obtain ⟨hf, e, he, hc⟩ := h
  unfold target
  rw [hf]
  dsimp only
  cases hp : s.place? code with
  | none => exact absurd hc (lastPlace?_eq_none_iff.mp hp e he)
  | some i =>
    have hi : lastPlace? code s.entries = some i := hp
    rw [hi]
    rfl

lemma zip_targets (code : υ → String) (es : List Entry) (us : List υ) :
    (us.map fun u => (lastPlace? (code u) es).getD 0).zip us = addressed code es us := by
  unfold addressed
  rw [List.zip_map_left, List.zip_eq_zipWith, List.zipWith_self, List.map_map]
  rfl

lemma applyFormulas_eq {s : Store} {us : List FormulaUpdate}
    (h : ∀ u ∈ us, s.Admits u.code (some u.compiled.formula)) :
    s.applyFormulas us = .ok { s with
      entries := writeAt Entry.applyFormula s.entries (addressed (·.code) s.entries us) } := by
  unfold applyFormulas
  rw [mapM_eq_ok fun u hu => (h u hu).target_eq, ← zip_targets]
  rfl

lemma writeBatch_eq {s : Store} {us : List EntryUpdate}
    (h : ∀ u ∈ us, s.Admits u.code u.adjusted) :
    s.writeBatch us = .ok ⟨writeAt Entry.applySynthesis s.entries
      (addressed (·.code) s.entries us), s.batches + 1⟩ := by
  unfold writeBatch
  rw [mapM_eq_ok fun u hu => (h u hu).target_eq, ← zip_targets]
  rfl

/-- What a store admits, it admits as long as its codes stay. -/
lemma Admits.congr {s t : Store} (hc : s.entries.map (·.code) = t.entries.map (·.code))
    {code : String} {formula : Option String} (h : s.Admits code formula) :
    t.Admits code formula := by
  obtain ⟨hf, e, he, rfl⟩ := h
  have hm : e.code ∈ t.entries.map (·.code) := by
    rw [← hc]
    exact List.mem_map_of_mem he
  obtain ⟨e', he', hcode⟩ := List.mem_map.mp hm
  exact ⟨hf, e', he', hcode⟩

lemma deliver_eq {bs : List (List EntryUpdate)} {s : Store}
    (h : ∀ b ∈ bs, ∀ u ∈ b, s.Admits u.code u.adjusted) :
    deliver writeBatch s bs = (⟨writeAt Entry.applySynthesis s.entries
      (addressed (·.code) s.entries bs.flatten), s.batches + bs.length⟩, .ok ()) := by
  induction bs generalizing s with
  | nil => rfl
  | cons b bs ih =>
    rw [List.forall_mem_cons] at h
    have hcodes := map_code_writeAt Entry.code_applySynthesis s.entries
      (addressed (·.code) s.entries b)
    unfold deliver
    rw [writeBatch_eq h.1]
    dsimp only
    rw [ih fun b' hb u hu => (h.2 b' hb u hu).congr hcodes.symm, addressed_congr hcodes,
      ← writeAt_append, List.flatten_cons, List.length_cons]
    unfold addressed
    rw [List.map_append, Nat.add_right_comm, Nat.add_assoc]

def synthesized (s : Store) (now : Instant) : List Entry :=
  writeAt Entry.applySynthesis s.entries
    (addressed (·.code) s.entries (Synthesis.updates now s.entries))

lemma foldl_applySynthesis (e : Entry) (us : List EntryUpdate) :
    us.foldl Entry.applySynthesis e = (us.getLast?.map e.applySynthesis).getD e := by
  induction us generalizing e with
  | nil => rfl
  | cons u us ih =>
    rw [List.foldl_cons, ih, List.getLast?_cons]
    cases us.getLast? <;> rfl

lemma getElem?_synthesized {s : Store} (now : Instant) {i : Nat} {e : Entry}
    (he : s.entries[i]? = some e) : (s.synthesized now)[i]? = some
      (if s.place? e.code = some i then
        (((Synthesis.updates now s.entries).filter (·.code = e.code)).getLast?.map
          e.applySynthesis).getD e
      else e) := by
  have hu : ∀ u ∈ Synthesis.updates now s.entries, ∃ e ∈ s.entries, e.code = u.code := by
    intro u hu
    obtain ⟨e, he, -, rfl⟩ := Synthesis.exists_of_mem_updates hu
    exact ⟨e, (List.mem_filter.mp he).1, rfl⟩
  unfold synthesized
  rw [getElem?_writeAt, he, Option.map_some, updatesAt_addressed hu he]
  unfold place?
  split_ifs with hp
  · rw [foldl_applySynthesis]
  · rfl

/-- **A synthesis writes all its updates**: it never fails, and the entries it leaves do not depend
on the size of a batch or the number of workers. -/
theorem synthesize_eq (s : Store) (now : Instant) (size workers : Nat) :
    s.synthesize now size workers =
      (⟨s.synthesized now,
        s.batches + (Synthesis.batches size (Synthesis.outcomes now s.entries)).length⟩,
        .ok (stats (Synthesis.outcomes now s.entries))) := by
  have hadmits : ∀ b ∈ Synthesis.batches size (Synthesis.outcomes now s.entries), ∀ u ∈ b,
      s.Admits u.code u.adjusted := by
    intro b hb u hu
    have hu : u ∈ Synthesis.updates now s.entries := by
      rw [← Synthesis.flatten_batches now size]
      exact List.mem_flatten_of_mem hb hu
    obtain ⟨e, he, -, rfl⟩ := Synthesis.exists_of_mem_updates hu
    exact ⟨Adjustment.refusal?_adjusted e _ _, e, (List.mem_filter.mp he).1, rfl⟩
  unfold synthesize Synthesis.run
  dsimp only
  rw [Synthesis.plan_eq, deliver_eq hadmits, Synthesis.flatten_batches]
  rfl

end Store

end Tariff
