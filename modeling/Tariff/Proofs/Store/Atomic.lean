import Tariff.Proofs.Store.Live

/-!
A write of several updates is done in full or not at all. It is refused for the first update that
does not stand, and then leaves everything as it was. Otherwise what an entry holds is what the
last of the updates addressed to it brings, and the rest stays.
-/

namespace Tariff.LiveStore

variable {υ : Type} {s : LiveStore} {k : Kind υ} {us : List υ} {u : υ} {e : StoreError}

/-! ### Updates that do not stand -/

/-- Why an update does not stand: its formula does not pass the gate, or else there is no entry
with its code. -/
inductive Kind.Offends (k : Kind υ) (s : LiveStore) (u : υ) : StoreError → Prop where
  | formula {text : String} {r : Formula.Refusal} : k.formula u = some text →
    Formula.refusal? text = some r → k.Offends s u (.invalidFormula (k.code u) r)
  | code : (∀ text, k.formula u = some text → Formula.refusal? text = none) →
    (∀ e ∈ s.entries, e.code ≠ k.code u) → k.Offends s u (.unknownCode (k.code u))

def Kind.FirstOffence (k : Kind υ) (s : LiveStore) (us : List υ) (e : StoreError) : Prop :=
  ∃ before u after, us = before ++ u :: after ∧ (∀ v ∈ before, ∀ e', ¬k.Offends s v e') ∧
    k.Offends s u e

lemma admits_iff : s.toStore.Admits (k.code u) (k.formula u) ↔ ∀ e, ¬k.Offends s u e := by
  constructor
  · rintro ⟨hf, x, hx, hcode⟩ _ (⟨ht, hr⟩ | ⟨-, hnone⟩)
    · rw [ht, Option.bind_some, hr] at hf
      cases hf
    · exact hnone x hx hcode
  · intro h
    have hf : ∀ text, k.formula u = some text → Formula.refusal? text = none := fun text ht =>
      Option.eq_none_iff_forall_ne_some.mpr fun r hr => h _ (.formula ht hr)
    refine ⟨Option.bind_eq_none_iff.mpr hf, ?_⟩
    by_contra hnone
    exact h _ (.code hf fun x hx hcode => hnone ⟨x, hx, hcode⟩)

lemma target_cases (s : LiveStore) (k : Kind υ) (u : υ) :
    (∃ i, s.toStore.target (k.code u) (k.formula u) = .ok i ∧
      s.toStore.Admits (k.code u) (k.formula u)) ∨
    ∃ e, s.toStore.target (k.code u) (k.formula u) = .error e ∧ k.Offends s u e := by
  unfold Store.target
  cases hb : (k.formula u).bind Formula.refusal? with
  | some r =>
    obtain ⟨text, ht, hr⟩ := Option.bind_eq_some_iff.mp hb
    exact .inr ⟨_, rfl, .formula ht hr⟩
  | none =>
    dsimp only
    cases hp : s.toStore.place? (k.code u) with
    | some i =>
      obtain ⟨⟨x, hx, hcode⟩, -⟩ := Store.lastPlace?_eq_some_iff.mp hp
      exact .inl ⟨i, rfl, hb, x, List.mem_of_getElem? hx, hcode⟩
    | none =>
      exact .inr ⟨_, rfl, .code (Option.bind_eq_none_iff.mp hb)
        (Store.lastPlace?_eq_none_iff.mp hp)⟩

lemma admits_of_target {i : Nat} (h : s.toStore.target (k.code u) (k.formula u) = .ok i) :
    s.toStore.Admits (k.code u) (k.formula u) := by
  rcases s.target_cases k u with ⟨-, -, hadmits⟩ | ⟨e, he, -⟩
  · exact hadmits
  · cases h.symm.trans he

lemma offends_of_target (h : s.toStore.target (k.code u) (k.formula u) = .error e) :
    k.Offends s u e := by
  rcases s.target_cases k u with ⟨i, hi, -⟩ | ⟨e', he', hoffends⟩
  · cases h.symm.trans hi
  · cases h.symm.trans he'
    exact hoffends

/-- Either the first update that does not stand has the write refused, and nothing is changed, or
all updates stand and are made. -/
lemma writeAll_spec (s : LiveStore) (k : Kind υ) (us : List υ) :
    (∃ e, s.perform (writeAll k us) = (.error e, s) ∧ k.FirstOffence s us e) ∨
    (∀ u ∈ us, s.toStore.Admits (k.code u) (k.formula u)) ∧
      s.perform (writeAll k us) = (.ok ⟨⟩, s.written k (Store.addressed k.code s.entries us)) := by
  rcases s.writeAll_cases k us with ⟨targets, hm, hw⟩ | ⟨e, hm, hw⟩
  · have hadmits : ∀ u ∈ us, s.toStore.Admits (k.code u) (k.formula u) := fun u hu =>
      admits_of_target (exists_of_mapM_eq_ok hm hu).choose_spec
    have htargets := mapM_eq_ok fun u hu => (hadmits u hu).target_eq
    rw [hm, Except.ok.injEq] at htargets
    rw [htargets, Store.zip_targets] at hw
    exact .inr ⟨hadmits, hw⟩
  · obtain ⟨before, u, after, rfl, hbefore, hu⟩ := exists_first_of_mapM_eq_error hm
    refine .inl ⟨e, hw, before, u, after, rfl, fun v hv => ?_, offends_of_target hu⟩
    obtain ⟨i, hi⟩ := hbefore v hv
    exact admits_iff.mp (admits_of_target hi)

/-! ### What is left of the updates -/

lemma updatesAt_addressed_eq (h : ∀ u ∈ us, s.toStore.Admits (k.code u) (k.formula u)) (i : Nat) :
    Store.updatesAt i (Store.addressed k.code s.entries us) =
      us.filter fun u => s.places.lookup (k.code u) = some i := by
  unfold Store.updatesAt Store.addressed
  rw [List.filterMap_map, ← List.filterMap_eq_filter]
  refine List.filterMap_congr fun u hu => ?_
  obtain ⟨-, x, hx, hcode⟩ := h u hu
  obtain ⟨j, hj⟩ : ∃ j, Store.lastPlace? (k.code u) s.entries = some j :=
    Option.ne_none_iff_exists'.mp fun hn => Store.lastPlace?_eq_none_iff.mp hn x hx hcode
  simp [Option.guard, s.exact, hj]

lemma getElem?_written (h : ∀ u ∈ us, s.toStore.Admits (k.code u) (k.formula u)) (i : Nat) :
    (s.written k (Store.addressed k.code s.entries us)).entries[i]? = s.entries[i]?.map
      ((us.filter fun u => s.places.lookup (k.code u) = some i).foldl k.apply) := by
  rw [(s.written_eq k _).1, Store.getElem?_writeAt, updatesAt_addressed_eq h]

lemma map_code_written (s : LiveStore) (k : Kind υ) (us : List υ) :
    (s.written k (Store.addressed k.code s.entries us)).entries.map (·.code) =
      s.entries.map (·.code) := by
  rw [(s.written_eq k _).1, Store.map_code_writeAt k.code_apply]

def rateAfter (s : LiveStore) (us : List FormulaUpdate) (i : Nat) (e : Entry) (col : Column) :
    ColumnRate :=
  match (us.filter fun u => s.places.lookup u.code = some i ∧ u.column = col).getLast? with
  | none => e.rate col
  | some u => (e.rate col).holding u

def ratesAfter (s : LiveStore) (us : List FormulaUpdate) (i : Nat) (e : Entry) : Entry :=
  { e with general := s.rateAfter us i e .general, other := s.rateAfter us i e .other }

def derivedAfter (s : LiveStore) (us : List EntryUpdate) (i : Nat) (e : Entry) : Entry :=
  match (us.filter fun u => s.places.lookup u.code = some i).getLast? with
  | none => e
  | some u => e.applySynthesis u

lemma foldl_applyFormula_eq (s : LiveStore) (us : List FormulaUpdate) (i : Nat) (e : Entry) :
    (us.filter fun u => s.places.lookup u.code = some i).foldl Entry.applyFormula e =
      s.ratesAfter us i e := by
  have hrate (col : Column) :
      ((us.filter fun u => s.places.lookup u.code = some i).foldl Entry.applyFormula e).rate col =
        s.rateAfter us i e col := by
    have hfilter : (us.filter fun u => s.places.lookup u.code = some i).filter (·.column = col) =
        us.filter fun u => s.places.lookup u.code = some i ∧ u.column = col := by
      rw [List.filter_filter]
      refine List.filter_congr fun u _ => ?_
      rw [Bool.and_comm, ← Bool.decide_and]
    unfold rateAfter
    rw [Entry.rate_foldl_applyFormula, hfilter]
    cases (us.filter fun u => s.places.lookup u.code = some i ∧ u.column = col).getLast? <;> rfl
  obtain ⟨general, other, h⟩ := Entry.exists_foldl_applyFormula e
    (us.filter fun u => s.places.lookup u.code = some i)
  rw [h] at hrate ⊢
  unfold ratesAfter
  rw [← hrate .general, ← hrate .other]
  rfl

lemma foldl_applySynthesis_eq (s : LiveStore) (us : List EntryUpdate) (i : Nat) (e : Entry) :
    (us.filter fun u => s.places.lookup u.code = some i).foldl Entry.applySynthesis e =
      s.derivedAfter us i e := by
  unfold derivedAfter
  rw [Store.foldl_applySynthesis]
  cases (us.filter fun u => s.places.lookup u.code = some i).getLast? <;> rfl

/-! ### All or nothing -/

/-- What a write of updates comes to: it is refused for the first that does not stand, with all as
it was before, or all stand, it brings `a`, and counts `more` batches. Each entry is then what
`left` makes of it, by its place. -/
structure Kind.AllOrNothing {α : Type} (k : Kind υ) (s : LiveStore) (us : List υ) (w : Write α)
    (a : α) (more : Nat) (left : Nat → Entry → Entry) : Prop where
  refused : ∀ e t, s.perform w = (.error e, t) → t = s ∧ k.FirstOffence s us e
  done : ∀ b t, s.perform w = (.ok b, t) → b = a ∧ (∀ u ∈ us, ∀ e, ¬k.Offends s u e) ∧
    t.places = s.places ∧ t.batches = s.batches + more ∧
      ∀ i, t.entries[i]? = s.entries[i]?.map (left i)

lemma allOrNothing_bind {α : Type} {rest : Write α} {a : α} {f : LiveStore → LiveStore}
    {more : Nat} {left : Nat → Entry → Entry} (hrest : ∀ t, t.perform rest = (.ok a, f t))
    (hf : ∀ t, (f t).entries = t.entries ∧ (f t).places = t.places ∧
      (f t).batches = t.batches + more)
    (hleft : ∀ i e, (us.filter fun u => s.places.lookup (k.code u) = some i).foldl k.apply e =
      left i e) :
    k.AllOrNothing s us (do writeAll k us; rest) a more left := by
  rcases s.writeAll_spec k us with ⟨e, hw, hfirst⟩ | ⟨hadmits, hw⟩
  · have hp : s.perform (do writeAll k us; rest) = (.error e, s) := perform_bind_error hw
    constructor
    · intro e' t h
      cases hp.symm.trans h
      exact ⟨rfl, hfirst⟩
    · intro b t h
      cases hp.symm.trans h
  · have hp : s.perform (do writeAll k us; rest) = (.ok a, f _) :=
      (perform_bind_ok hw).trans (hrest _)
    constructor
    · intro e t h
      cases hp.symm.trans h
    · intro b t h
      cases hp.symm.trans h
      obtain ⟨hentries, hplaces, hbatches⟩ := hf (s.written k (Store.addressed k.code s.entries us))
      obtain ⟨-, hplaces', hbatches'⟩ := s.written_eq k (Store.addressed k.code s.entries us)
      refine ⟨rfl, fun u hu => admits_iff.mp (hadmits u hu), hplaces.trans hplaces', ?_,
        fun i => ?_⟩
      · rw [hbatches, hbatches']
      · rw [hentries, getElem?_written hadmits, funext (hleft i)]

/-- **A write is done in full or not at all**, whatever the updates: formulas are written by column,
and of several for one column the last one stays; syntheses are written by entry. -/
theorem writes_all_or_nothing (s : LiveStore) :
    (∀ us, formulas.AllOrNothing s us (applyFormulas us) us.length 0 (s.ratesAfter us)) ∧
      ∀ us, syntheses.AllOrNothing s us (writeBatch us) ⟨⟩ 1 (s.derivedAfter us) :=
  ⟨fun us => allOrNothing_bind (fun t => t.perform_pure us.length) (fun _ => ⟨rfl, rfl, rfl⟩)
    (s.foldl_applyFormula_eq us),
  fun us => allOrNothing_bind (fun t => t.perform_modify countBatch) (fun _ => ⟨rfl, rfl, rfl⟩)
    (s.foldl_applySynthesis_eq us)⟩

end Tariff.LiveStore
