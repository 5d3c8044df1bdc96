import Tariff.Proofs.Compilation.Pass
import Tariff.Proofs.Store.Writes

/-!
Compile passes and syntheses as the steps of a store. A step makes no update that the store
refuses, so a run of steps ends early only where a pass stops. What a pass leaves in a rate column
of the entry that a code names is the last of its updates for that code and column, and likewise
for a synthesis.
-/

namespace Tariff

open Compilation (Compiler Writable cells updatesBy updates_answer pass_eq_ok_iff pass_eq_error_iff)

def ColumnRate.holding (r : ColumnRate) (u : FormulaUpdate) : ColumnRate where
  text := r.text
  formula := some u.compiled.formula
  vars := some u.compiled.vars
  origin := some ⟨u.compiled.method, u.compiled.confidence, u.generatedAt⟩

lemma Entry.rate_applyFormula (e : Entry) (u : FormulaUpdate) (col : Column) :
    (e.applyFormula u).rate col =
      if u.column = col then (e.rate col).holding u else e.rate col := by
  unfold Entry.applyFormula
  generalize hc : u.column = c
  cases c <;> cases col <;> simp [Entry.setRate, Entry.rate, ColumnRate.holding]

/-- Of several formulas written onto one column the last one stays. -/
lemma Entry.rate_foldl_applyFormula (e : Entry) (us : List FormulaUpdate) (col : Column) :
    (us.foldl Entry.applyFormula e).rate col =
      ((us.filter (·.column = col)).getLast?.map (e.rate col).holding).getD (e.rate col) := by
  induction us generalizing e with
  | nil => rfl
  | cons u us ih =>
    rw [List.foldl_cons, ih, Entry.rate_applyFormula]
    split_ifs with hc
    · rw [List.filter_cons_of_pos (by simpa using hc), List.getLast?_cons]
      cases (us.filter (·.column = col)).getLast? <;> rfl
    · rw [List.filter_cons_of_neg (by simpa using hc)]

lemma Entry.exists_applyFormula (e : Entry) (u : FormulaUpdate) :
    ∃ general other, e.applyFormula u = { e with general := general, other := other } := by
  unfold Entry.applyFormula
  cases u.column <;> exact ⟨_, _, rfl⟩

/-- Formulas are written onto nothing but the rate columns. -/
lemma Entry.exists_foldl_applyFormula (e : Entry) (us : List FormulaUpdate) :
    ∃ general other, us.foldl Entry.applyFormula e =
      { e with general := general, other := other } := by
  induction us generalizing e with
  | nil => exact ⟨e.general, e.other, rfl⟩
  | cons u us ih =>
    obtain ⟨g, o, hu⟩ := e.exists_applyFormula u
    obtain ⟨g', o', h⟩ := ih { e with general := g, other := o }
    refine ⟨g', o', ?_⟩
    rw [List.foldl_cons, hu]
    exact h

namespace Store

/-- A compile pass whose formulas are written, or a synthesis. -/
inductive Step where
  | compile (c : Compiler) (now : Option Instant)
  | synthesize (now : Instant) (batchSize workers : Nat)

/-- Why a step does not come to its end. -/
inductive Stop where
  /-- a pass stops the program -/
  | fault (f : Formula.Fault)
  | refused (e : StoreError)

def step (s : Store) : Step → Except Stop Store
  | .compile c now =>
    match c.pass now s.entries with
    | .ok (_, r) => (s.applyFormulas r.updates).mapError .refused
    | .error f => .error (.fault f)
  | .synthesize now batchSize workers =>
    match s.synthesize now batchSize workers with
    | (t, .ok _) => .ok t
    | (_, .error e) => .error (.refused e)

def run (s : Store) : List Step → Except Stop Store
  | [] => .ok s
  | a :: rest => do (← s.step a).run rest

/-! ### Compile passes -/

lemma exists_of_mem_updatesBy {now : Option Instant}
    {found : String → Option String → Option Compiled} {es : List Entry} {u : FormulaUpdate}
    (h : u ∈ updatesBy now found (cells es)) :
    ∃ e ∈ es, e.code = u.code ∧ ∃ text unit, found text unit = some u.compiled := by
  obtain ⟨x, hx, hu⟩ := List.mem_filterMap.mp h
  obtain ⟨e, he, hx⟩ := List.mem_flatMap.mp hx
  obtain ⟨col, -, hx⟩ := List.mem_filterMap.mp hx
  obtain ⟨text, -, rfl⟩ := Option.map_eq_some_iff.mp hx
  obtain ⟨f, hf, rfl⟩ := Option.map_eq_some_iff.mp hu
  exact ⟨e, he, rfl, _, _, hf⟩

/-- A store admits all updates of a pass over its entries. -/
lemma admits_answer (s : Store) (c : Compiler) (now : Option Instant) :
    ∀ u ∈ (c.answer now s.entries).2.updates, s.Admits u.code (some u.compiled.formula) := by
  intro u hu
  rw [updates_answer, List.mem_append] at hu
  rcases hu with hu | hu
  · obtain ⟨e, he, hc, text, unit, hf⟩ := exists_of_mem_updatesBy hu
    exact ⟨(Compilation.exists_of_known? hf).2, e, he, hc⟩
  · obtain ⟨e, he, hc, text, unit, hf⟩ := exists_of_mem_updatesBy hu
    exact ⟨(Compilation.of_generated? Generation.readable_discounted hf).2, e, he, hc⟩

def compiled (s : Store) (c : Compiler) (now : Option Instant) : List Entry :=
  writeAt Entry.applyFormula s.entries
    (addressed (·.code) s.entries (c.answer now s.entries).2.updates)

lemma step_compile (s : Store) (c : Compiler) (now : Option Instant) :
    s.step (.compile c now) = match c.pass now s.entries with
      | .ok _ => .ok ⟨s.compiled c now, s.batches⟩
      | .error f => .error (.fault f) := by
  have hwritten : (s.applyFormulas (c.answer now s.entries).2.updates).mapError Stop.refused =
      .ok ⟨s.compiled c now, s.batches⟩ := by
    rw [applyFormulas_eq (s.admits_answer c now)]
    rfl
  unfold step
  dsimp only
  cases hp : c.pass now s.entries with
  | error f => rfl
  | ok p =>
    obtain ⟨-, rfl⟩ := pass_eq_ok_iff.mp hp
    exact hwritten

lemma step_compile_ok {s t : Store} {c : Compiler} {now : Option Instant}
    (h : s.step (.compile c now) = .ok t) : t = ⟨s.compiled c now, s.batches⟩ := by
  rw [step_compile] at h
  cases hp : c.pass now s.entries <;> rw [hp] at h <;> cases h
  rfl

lemma getElem?_compiled {s : Store} (c : Compiler) (now : Option Instant) {i : Nat} {e : Entry}
    (he : s.entries[i]? = some e) : (s.compiled c now)[i]? = some
      (if s.place? e.code = some i then
        ((c.answer now s.entries).2.updates.filter (·.code = e.code)).foldl Entry.applyFormula e
      else e) := by
  have hu : ∀ u ∈ (c.answer now s.entries).2.updates, ∃ e ∈ s.entries, e.code = u.code :=
    fun u hu => (s.admits_answer c now u hu).2
  unfold compiled
  rw [getElem?_writeAt, he, Option.map_some, updatesAt_addressed hu he]
  unfold place?
  split_ifs <;> rfl

/-! ### Runs -/

lemma step_synthesize (s : Store) (now : Instant) (batchSize workers : Nat) :
    s.step (.synthesize now batchSize workers) = .ok ⟨s.synthesized now, s.batches +
      (Synthesis.batches batchSize (Synthesis.outcomes now s.entries)).length⟩ := by
  simp only [step, synthesize_eq]

lemma map_code_compiled (s : Store) (c : Compiler) (now : Option Instant) :
    (s.compiled c now).map (·.code) = s.entries.map (·.code) :=
  map_code_writeAt Entry.code_applyFormula _ _

lemma map_code_synthesized (s : Store) (now : Instant) :
    (s.synthesized now).map (·.code) = s.entries.map (·.code) :=
  map_code_writeAt Entry.code_applySynthesis _ _

lemma map_code_step {s t : Store} {a : Step} (h : s.step a = .ok t) :
    t.entries.map (·.code) = s.entries.map (·.code) := by
  cases a with
  | compile c now =>
    rw [step_compile_ok h]
    exact s.map_code_compiled c now
  | synthesize now batchSize workers =>
    cases (s.step_synthesize now batchSize workers).symm.trans h
    exact s.map_code_synthesized now

/-- No step is refused. -/
lemma step_ne_refused (s : Store) (a : Step) (e : StoreError) : s.step a ≠ .error (.refused e) := by
  cases a with
  | compile c now =>
    rw [step_compile]
    cases c.pass now s.entries <;> nofun
  | synthesize now batchSize workers =>
    rw [step_synthesize]
    nofun

/-- **No run is refused**, and none adds, drops or moves an entry. -/
theorem run_ok (s : Store) (steps : List Step) :
    (∃ f, s.run steps = .error (.fault f)) ∨
      ∃ t, s.run steps = .ok t ∧ t.entries.map (·.code) = s.entries.map (·.code) := by
  induction steps generalizing s with
  | nil => exact .inr ⟨s, rfl, rfl⟩
  | cons a rest ih =>
    unfold run
    cases ht : s.step a with
    | ok t =>
      refine (ih t).imp id fun ⟨t', ht', hcodes⟩ => ?_
      exact ⟨t', ht', hcodes.trans (map_code_step ht)⟩
    | error x =>
      cases x with
      | fault f => exact .inl ⟨f, rfl⟩
      | refused e => exact absurd ht (s.step_ne_refused a e)

/-- A property of each step of a run that comes to its end, told of the store before the step and
the one after it. No step is refused. -/
def EachStep (P : Store → Step → Store → Prop) (s : Store) : List Step → Prop
  | [] => True
  | a :: rest =>
    match s.step a with
    | .ok t => P s a t ∧ t.EachStep P rest
    | .error (.fault _) => True
    | .error (.refused _) => False

lemma eachStep_congr {P Q : Store → Step → Store → Prop}
    (h : ∀ s a t, s.step a = .ok t → (P s a t ↔ Q s a t)) (s : Store) (steps : List Step) :
    s.EachStep P steps ↔ s.EachStep Q steps := by
  induction steps generalizing s with
  | nil => exact Iff.rfl
  | cons a rest ih =>
    unfold EachStep
    cases ht : s.step a with
    | ok t => exact and_congr (h s a t ht) (ih t)
    | error x => cases x <;> exact Iff.rfl

/-- What holds at each step by an invariant holds all along a run. -/
lemma eachStep_of_invariant {P : Store → Step → Store → Prop} {I : Store → Prop}
    (h : ∀ s a t, I s → s.step a = .ok t → P s a t ∧ I t) {s : Store} (hs : I s)
    (steps : List Step) : s.EachStep P steps := by
  induction steps generalizing s with
  | nil => trivial
  | cons a rest ih =>
    unfold EachStep
    cases ht : s.step a with
    | ok t =>
      obtain ⟨hp, hi⟩ := h s a t hs ht
      exact ⟨hp, ih hi⟩
    | error x =>
      cases x with
      | fault f => trivial
      | refused e => exact s.step_ne_refused a e ht

/-- An entry that its code does not name is never written to. -/
theorem getElem?_of_shadowed {s t : Store} {steps : List Step} (h : s.run steps = .ok t) {i : Nat}
    {e : Entry} (he : s.entries[i]? = some e) (hs : s.place? e.code ≠ some i) :
    t.entries[i]? = some e := by
  induction steps generalizing s with
  | nil => cases h; exact he
  | cons a rest ih =>
    obtain ⟨r, hr, h⟩ := bind_eq_ok.mp h
    refine ih h ?_ (by rwa [place?, lastPlace?_congr (map_code_step hr)])
    cases a with
    | compile c now =>
      rw [step_compile_ok hr]
      exact (getElem?_compiled c now he).trans (by rw [if_neg hs])
    | synthesize now batchSize workers =>
      cases (s.step_synthesize now batchSize workers).symm.trans hr
      exact (getElem?_synthesized now he).trans (by rw [if_neg hs])

/-! ### The entry that a code names -/

lemma get?_eq_some_iff {s : Store} {code : String} {e : Entry} :
    s.get? code = some e ↔ ∃ i, s.place? code = some i ∧ s.entries[i]? = some e :=
  Option.bind_eq_some_iff

lemma code_of_get? {s : Store} {code : String} {e : Entry} (h : s.get? code = some e) :
    e.code = code := by
  obtain ⟨i, hp, he⟩ := get?_eq_some_iff.mp h
  obtain ⟨⟨e', he', hc⟩, -⟩ := lastPlace?_eq_some_iff.mp hp
  rw [he, Option.some.injEq] at he'
  rw [he', hc]

lemma get?_of_getElem? {s : Store} {es : List Entry} {batches : Nat}
    (hcodes : es.map (·.code) = s.entries.map (·.code)) {code : String} {e e' : Entry}
    (h : s.get? code = some e)
    (hw : ∀ i, s.place? code = some i → s.entries[i]? = some e → es[i]? = some e') :
    (Store.mk es batches).get? code = some e' := by
  obtain ⟨i, hp, he⟩ := get?_eq_some_iff.mp h
  exact get?_eq_some_iff.mpr ⟨i, (lastPlace?_congr hcodes).trans hp, hw i hp he⟩

lemma get?_compiled {s : Store} {code : String} {e : Entry} (h : s.get? code = some e)
    (c : Compiler) (now : Option Instant) (batches : Nat) :
    (Store.mk (s.compiled c now) batches).get? code = some
      (((c.answer now s.entries).2.updates.filter (·.code = code)).foldl Entry.applyFormula e) := by
  refine get?_of_getElem? (s.map_code_compiled c now) h fun i hp he => ?_
  have hc := code_of_get? h
  rw [getElem?_compiled c now he, hc, if_pos hp]

lemma get?_synthesized {s : Store} {code : String} {e : Entry} (h : s.get? code = some e)
    (now : Instant) (batches : Nat) :
    (Store.mk (s.synthesized now) batches).get? code = some
      ((((Synthesis.updates now s.entries).filter (·.code = code)).getLast?.map
        e.applySynthesis).getD e) := by
  refine get?_of_getElem? (s.map_code_synthesized now) h fun i hp he => ?_
  have hc := code_of_get? h
  rw [getElem?_synthesized now he, hc, if_pos hp]

end Store

end Tariff
