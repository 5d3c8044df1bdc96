import Tariff.Proofs.Store.Steps
import Tariff.Store.Live

/-!
Writes in place. They come to what the writes of a store come to, and leave what those leave; a
refused write leaves all as it was. The writes of a compile pass and of a synthesis are never
refused, whatever was written before.
-/

namespace Tariff.LiveStore

open Compilation (Compiler)

variable {α β υ : Type} {s t : LiveStore}

/-! ### Performing -/

lemma perform_pure (s : LiveStore) (a : α) : s.perform (pure a) = (.ok a, s) := rfl

lemma perform_bind_ok {w : Write α} {f : α → Write β} {a : α} (h : s.perform w = (.ok a, t)) :
    s.perform (w >>= f) = t.perform (f a) := by
  unfold perform at h ⊢
  rw [ExceptT.run_bind, StateT.run_bind, h]
  rfl

lemma perform_bind_error {w : Write α} {f : α → Write β} {e : StoreError}
    (h : s.perform w = (.error e, t)) : s.perform (w >>= f) = (.error e, t) := by
  unfold perform at h ⊢
  rw [ExceptT.run_bind, StateT.run_bind, h]
  rfl

lemma perform_modify (s : LiveStore) (f : LiveStore → LiveStore) :
    s.perform (modify f) = (.ok ⟨⟩, f s) := rfl

lemma perform_get (s : LiveStore) : s.perform get = (.ok s, s) := rfl

/-- The index tells what a search of the entries tells. -/
lemma perform_target (s : LiveStore) (code : String) (formula : Option String) :
    s.perform (target code formula) = (s.toStore.target code formula, s) := by
  have hplace : s.toStore.place? code = s.places.lookup code := (s.exact code).symm
  unfold target Store.target
  rw [hplace]
  cases formula.bind Formula.refusal? with
  | some r => rfl
  | none =>
    dsimp only
    rw [perform_bind_ok s.perform_get]
    cases s.places.lookup code <;> rfl

lemma perform_mapM {f : υ → Write β} {g : υ → Except StoreError β}
    (h : ∀ u, s.perform (f u) = (g u, s)) (us : List υ) :
    s.perform (us.mapM f) = (us.mapM g, s) := by
  induction us with
  | nil => rfl
  | cons u us ih =>
    rw [List.mapM_cons, List.mapM_cons]
    have hu := h u
    cases hg : g u with
    | error e =>
      rw [hg] at hu
      exact perform_bind_error hu
    | ok b =>
      rw [hg] at hu
      rw [perform_bind_ok hu]
      cases hm : us.mapM g with
      | error e =>
        rw [hm] at ih
        exact perform_bind_error ih
      | ok bs =>
        rw [hm] at ih
        rw [perform_bind_ok ih]
        rfl

def written (s : LiveStore) (k : Kind υ) (us : List (Nat × υ)) : LiveStore :=
  us.foldl (fun s (i, u) => s.change i (k.apply · u) (k.code_apply · u)) s

lemma perform_changes (s : LiveStore) (k : Kind υ) (us : List (Nat × υ)) :
    s.perform (forM us fun (i, u) => modify (·.change i (k.apply · u) (k.code_apply · u))) =
      (.ok ⟨⟩, s.written k us) := by
  induction us generalizing s with
  | nil => rfl
  | cons p us ih =>
    rw [List.forM_cons, perform_bind_ok (perform_modify s _), ih]
    rfl

lemma written_eq (s : LiveStore) (k : Kind υ) (us : List (Nat × υ)) :
    (s.written k us).entries = Store.writeAt k.apply s.entries us ∧
      (s.written k us).places = s.places ∧ (s.written k us).batches = s.batches := by
  induction us generalizing s with
  | nil => exact ⟨rfl, rfl, rfl⟩
  | cons p us ih => exact ih _

/-- Either all updates find their places and are made, or nothing is. -/
lemma writeAll_cases (s : LiveStore) (k : Kind υ) (us : List υ) :
    (∃ targets, (us.mapM fun u => s.toStore.target (k.code u) (k.formula u)) = .ok targets ∧
      s.perform (writeAll k us) = (.ok ⟨⟩, s.written k (targets.zip us))) ∨
    ∃ e, (us.mapM fun u => s.toStore.target (k.code u) (k.formula u)) = .error e ∧
      s.perform (writeAll k us) = (.error e, s) := by
  have htargets := perform_mapM (fun u => s.perform_target (k.code u) (k.formula u)) us
  unfold writeAll
  cases hm : us.mapM fun u => s.toStore.target (k.code u) (k.formula u) with
  | ok targets =>
    rw [hm] at htargets
    exact .inl ⟨targets, rfl, (perform_bind_ok htargets).trans (s.perform_changes k _)⟩
  | error e =>
    rw [hm] at htargets
    exact .inr ⟨e, rfl, perform_bind_error htargets⟩

/-! ### What is seen of a write -/

/-- What comes of a write, and what it leaves to be saved. -/
def shown (s : LiveStore) (w : Write α) : Except StoreError α × Store :=
  ((s.perform w).1, (s.perform w).2.toStore)

lemma shown_eq {w : Write α} {r : Except StoreError α} (h : s.perform w = (r, t)) :
    s.shown w = (r, t.toStore) := by
  rw [shown, h]

lemma shown_get_bind (s : LiveStore) (f : LiveStore → Write α) :
    s.shown (get >>= f) = s.shown (f s) := by
  unfold shown
  rw [perform_bind_ok s.perform_get]

lemma toStore_written (s : LiveStore) (k : Kind υ) (us : List (Nat × υ)) :
    (s.written k us).toStore = ⟨Store.writeAt k.apply s.entries us, s.batches⟩ := by
  obtain ⟨hentries, -, hbatches⟩ := s.written_eq k us
  rw [toStore, hentries, hbatches]

lemma toStore_countBatch (s : LiveStore) :
    s.countBatch.toStore = ⟨s.toStore.entries, s.toStore.batches + 1⟩ := rfl

theorem shown_applyFormulas (s : LiveStore) (us : List FormulaUpdate) :
    s.shown (applyFormulas us) = match s.toStore.applyFormulas us with
      | .ok t => (.ok us.length, t)
      | .error e => (.error e, s.toStore) := by
  rcases s.writeAll_cases formulas us with ⟨targets, hm, hw⟩ | ⟨e, hm, hw⟩
  · have hs : s.toStore.applyFormulas us = .ok ⟨_, s.batches⟩ := bind_eq_ok.mpr ⟨targets, hm, rfl⟩
    have hp : s.perform (applyFormulas us) = (.ok us.length, _) := perform_bind_ok hw
    rw [hs, shown_eq hp, toStore_written]
    rfl
  · have hs : s.toStore.applyFormulas us = .error e := bind_eq_error.mpr (.inl hm)
    have hp : s.perform (applyFormulas us) = (.error e, s) := perform_bind_error hw
    rw [hs, shown_eq hp]

theorem shown_writeBatch (s : LiveStore) (us : List EntryUpdate) :
    s.shown (writeBatch us) = match s.toStore.writeBatch us with
      | .ok t => (.ok ⟨⟩, t)
      | .error e => (.error e, s.toStore) := by
  rcases s.writeAll_cases syntheses us with ⟨targets, hm, hw⟩ | ⟨e, hm, hw⟩
  · have hs : s.toStore.writeBatch us = .ok ⟨_, s.batches + 1⟩ := bind_eq_ok.mpr ⟨targets, hm, rfl⟩
    have hp : s.perform (writeBatch us) =
        (.ok ⟨⟩, (s.written syntheses (targets.zip us)).countBatch) := perform_bind_ok hw
    rw [hs, shown_eq hp, toStore_countBatch, toStore_written]
    rfl
  · have hs : s.toStore.writeBatch us = .error e := bind_eq_error.mpr (.inl hm)
    have hp : s.perform (writeBatch us) = (.error e, s) := perform_bind_error hw
    rw [hs, shown_eq hp]

/-- Batch after batch, up to the first that is refused. -/
theorem shown_batches (s : LiveStore) (bs : List (List EntryUpdate)) :
    s.shown (forM bs writeBatch) = (Synthesis.deliver Store.writeBatch s.toStore bs).swap := by
  induction bs generalizing s with
  | nil => rfl
  | cons b bs ih =>
    have hb := s.shown_writeBatch b
    rw [List.forM_cons]
    unfold Synthesis.deliver
    cases hw : s.perform (writeBatch b) with
    | mk r t =>
      rw [shown_eq hw] at hb
      cases hs : s.toStore.writeBatch b with
      | ok t' =>
        rw [hs] at hb
        obtain ⟨rfl, rfl⟩ := Prod.mk.inj hb
        rw [shown, perform_bind_ok hw]
        exact ih t
      | error e =>
        rw [hs] at hb
        obtain ⟨rfl, ht⟩ := Prod.mk.inj hb
        rw [shown_eq (perform_bind_error hw), ht]
        rfl

lemma shown_batches_bind (s : LiveStore) (bs : List (List EntryUpdate)) (stats : Synthesis.Stats) :
    s.shown (do forM bs writeBatch; return stats) =
      match Synthesis.deliver Store.writeBatch s.toStore bs with
      | (t, .ok _) => (.ok stats, t)
      | (t, .error e) => (.error e, t) := by
  have hbatches := s.shown_batches bs
  rcases hw : s.perform (forM bs writeBatch) with ⟨r, t⟩
  rcases hd : Synthesis.deliver Store.writeBatch s.toStore bs with ⟨t', r'⟩
  rw [shown_eq hw, hd] at hbatches
  obtain ⟨rfl, rfl⟩ := Prod.mk.inj hbatches
  cases r with
  | ok _ => exact shown_eq (perform_bind_ok hw)
  | error e => exact shown_eq (perform_bind_error hw)

theorem shown_synthesize (s : LiveStore) (now : Instant) (batchSize workers : Nat) :
    s.shown (synthesize now batchSize workers) =
      (s.toStore.synthesize now batchSize workers).swap := by
  have hplan : s.shown (synthesize now batchSize workers) = _ := s.shown_get_bind _
  have hentries : s.toStore.entries = s.entries := rfl
  rw [hplan]
  dsimp only
  rw [shown_batches_bind]
  unfold Store.synthesize Synthesis.run
  dsimp only
  rw [hentries]
  rcases Synthesis.deliver Store.writeBatch s.toStore
    (Synthesis.batches batchSize (Synthesis.plan now workers s.entries)) with ⟨t, _ | _⟩ <;> rfl

/-! ### The writes of a pass and of a synthesis -/

lemma lt_of_lookup {code : String} {i : Nat} (h : s.places.lookup code = some i) :
    i < s.entries.length := by
  rw [s.exact, Store.lastPlace?_eq_some_iff] at h
  obtain ⟨⟨e, he, -⟩, -⟩ := h
  exact (List.getElem?_eq_some_iff.mp he).1

/-- **The writes of a pass and of a synthesis are never refused**, whatever the store holds and
whatever was written to it before: all formulas of a pass are written, and a synthesis comes to its
end. No write goes beyond the entries. -/
theorem own_writes_accepted (s : LiveStore) :
    (∀ (c : Compiler) now calls r, c.pass now s.entries = .ok (calls, r) →
      (s.perform (applyFormulas r.updates)).1 = .ok r.updates.length) ∧
    (∀ now batchSize workers, (s.perform (synthesize now batchSize workers)).1 =
      .ok (Synthesis.stats (Synthesis.plan now workers s.entries))) ∧
    ∀ code i, s.places.lookup code = some i → i < s.entries.length := by
  refine ⟨fun c now calls r hpass => ?_, fun now batchSize workers => ?_, fun _ _ => lt_of_lookup⟩
  · obtain ⟨-, rfl⟩ := Prod.mk.inj (Compilation.pass_eq_ok_iff.mp hpass).2
    have hs : s.toStore.applyFormulas (c.answer now s.entries).2.updates = .ok _ :=
      Store.applyFormulas_eq (s.toStore.admits_answer c now)
    have h := s.shown_applyFormulas (c.answer now s.entries).2.updates
    rw [hs] at h
    exact congrArg Prod.fst h
  · have h := s.shown_synthesize now batchSize workers
    rw [Store.synthesize_eq] at h
    rw [Synthesis.plan_eq]
    exact congrArg Prod.fst h

/-- Two entries with one code, of which the second holds a formula that would be refused. -/
def shadowing : LiveStore := ofEntries
  [{ code := "0101", general.text := some "Free" },
    { code := "0101", general.formula := some "1 +* ;" }]

theorem own_writes_accepted_shadowing :
    (∃ calls r, Compiler.pass ⟨none⟩ none shadowing.entries = .ok (calls, r) ∧
      (shadowing.perform (applyFormulas r.updates)).1 = .ok 1) ∧
    (shadowing.perform (synthesize ⟨0, 0⟩ 1 2)).1 = .ok ⟨2, 2, 0, 0, 2⟩ ∧
    shadowing.places.lookup "0101" = some 1 ∧ 1 < shadowing.entries.length := by
  obtain ⟨hpass, hsynthesize, hplaces⟩ := own_writes_accepted shadowing
  have hlookup : shadowing.places.lookup "0101" = some 1 := by decide
  have hone : (Compiler.pass ⟨none⟩ none shadowing.entries).toOption.map (·.2.updates.length) =
      some 1 := by
    decide +kernel
  obtain ⟨⟨calls, r⟩, hp, hlength⟩ := Option.map_eq_some_iff.mp hone
  have hp := toOption_eq_some hp
  refine ⟨⟨calls, r, hp, (hpass _ _ _ _ hp).trans (congrArg Except.ok hlength)⟩,
    (hsynthesize _ _ _).trans ?_, hlookup, hplaces _ _ hlookup⟩
  exact congrArg Except.ok (by decide +kernel)

end Tariff.LiveStore
