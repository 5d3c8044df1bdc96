import Tariff.Proofs.Schedule.Records
import Tariff.Proofs.Store.Clocks
import Tariff.Store.Snapshot

/-!
Stores that are saved and loaded again. Whatever was loaded and written before, a store is loaded
as it was saved exactly if each entry is, and then a synthesis of it does what it would have done
without that. An entry can fail to persist for two reasons: a number in it has digits that are read
as another number, or a footnote holds an object that is read in a different way the second time.
-/

namespace Tariff

open Json (Document printed)

variable {υ : Type}

/-! ### What writes keep -/

lemma Store.forall_mem_writeAt {P : Entry → Prop} {Q : υ → Prop} {apply : Entry → υ → Entry}
    (h : ∀ e u, P e → Q u → P (apply e u)) {es : List Entry} (hes : ∀ e ∈ es, P e)
    {us : List (Nat × υ)} (hus : ∀ p ∈ us, Q p.2) : ∀ e ∈ writeAt apply es us, P e := by
  have hfold (vs : List υ) (hvs : ∀ v ∈ vs, Q v) (e : Entry) (he : P e) : P (vs.foldl apply e) := by
    induction vs generalizing e with
    | nil => exact he
    | cons v vs ih =>
      rw [List.forall_mem_cons] at hvs
      exact ih hvs.2 _ (h e v he hvs.1)
  intro e he
  obtain ⟨i, hi⟩ := List.mem_iff_getElem?.mp he
  rw [getElem?_writeAt, Option.map_eq_some_iff] at hi
  obtain ⟨e', he', rfl⟩ := hi
  refine hfold _ (fun v hv => ?_) e' (hes e' (List.mem_of_getElem? he'))
  obtain ⟨⟨j, u⟩, hp, hv⟩ := List.mem_filterMap.mp hv
  dsimp only at hv
  split_ifs at hv
  cases hv
  exact hus (j, v) hp

lemma Store.forall_mem_addressed {Q : υ → Prop} {code : υ → String} {us : List υ}
    (h : ∀ u ∈ us, Q u) (es : List Entry) : ∀ p ∈ addressed code es us, Q p.2 := by
  intro p hp
  obtain ⟨u, hu, rfl⟩ := List.mem_map.mp hp
  exact h u hu

namespace Entry

variable {room : Nat} {e : Entry}

lemma forall_origin_applyFormula {P : Origin → Prop} (h : ∀ c, ∀ o ∈ (e.rate c).origin, P o)
    {u : FormulaUpdate} (hu : P ⟨u.compiled.method, u.compiled.confidence, u.generatedAt⟩) :
    ∀ c, ∀ o ∈ ((e.applyFormula u).rate c).origin, P o := by
  intro c o ho
  rw [e.rate_applyFormula u] at ho
  split_ifs at ho
  · cases ho
    exact hu
  · exact h c o ho

lemma Tidy.applyFormula (h : e.Tidy room) {u : FormulaUpdate} (hu : ∀ t ∈ u.generatedAt, t.Valid) :
    (e.applyFormula u).Tidy room := by
  have horigins := forall_origin_applyFormula h.origins hu
  obtain ⟨g, o, heq⟩ := e.exists_applyFormula u
  rw [heq] at horigins ⊢
  exact ⟨horigins, h.provenance, h.footnotes, h.sourceFootnotes⟩

lemma Tidy.applySynthesis (h : e.Tidy room) {u : EntryUpdate} (hu : u.provenance.Dated) :
    (e.applySynthesis u).Tidy room where
  origins := h.origins
  provenance p hp := by cases hp; exact hu
  footnotes := h.footnotes
  sourceFootnotes := h.sourceFootnotes

lemma Persists.applyFormula (h : e.Persists) {u : FormulaUpdate}
    (hu : Json.Persists u.compiled.confidence) : (e.applyFormula u).Persists := by
  have horigins := forall_origin_applyFormula h.origins hu
  obtain ⟨g, o, heq⟩ := e.exists_applyFormula u
  rw [heq] at horigins ⊢
  exact ⟨horigins, h.provenance, h.footnotes, h.sourceFootnotes⟩

lemma Persists.applySynthesis (h : e.Persists) {u : EntryUpdate} (hu : u.provenance.Persists) :
    (e.applySynthesis u).Persists where
  origins := h.origins
  provenance p hp := by cases hp; exact hu
  footnotes := h.footnotes
  sourceFootnotes := h.sourceFootnotes

/-- An entry as it is before a synthesis, with a text for its footnotes if it has any. -/
structure Plain (e : Entry) : Prop where
  origins : ∀ c, ∀ o ∈ (e.rate c).origin, o.Dated ∧ o.Persists
  provenance : e.provenance = none
  footnotes : ∀ f ∈ e.footnotes, ∃ s, f = .text s
  sourceFootnotes : e.sourceFootnotes = none

lemma plain_of_none (hgeneral : e.general.origin = none) (hother : e.other.origin = none)
    (hprovenance : e.provenance = none) (hfootnotes : ∀ f ∈ e.footnotes, ∃ s, f = .text s)
    (hsource : e.sourceFootnotes = none) : e.Plain where
  origins c o ho := by
    cases c
    · cases hgeneral.symm.trans ho
    · cases hother.symm.trans ho
  provenance := hprovenance
  footnotes := hfootnotes
  sourceFootnotes := hsource

lemma Plain.tidy (h : e.Plain) : e.Tidy room where
  origins c o ho := (h.origins c o ho).1
  provenance := by simp [h.provenance]
  footnotes f hf := by obtain ⟨s, rfl⟩ := h.footnotes f hf; exact .text
  sourceFootnotes := by simp [h.sourceFootnotes]

lemma Plain.persists (h : e.Plain) : e.Persists where
  origins c o ho := (h.origins c o ho).2
  provenance := by simp [h.provenance]
  footnotes f hf := by obtain ⟨s, rfl⟩ := h.footnotes f hf; trivial
  sourceFootnotes := by simp [h.sourceFootnotes]

end Entry

namespace Store

/-- The stores that come from a snapshot: it is loaded, and formulas and syntheses are written onto
it in any order. Their times can be told. -/
inductive Reached : Store → Prop where
  | load {text : String} {s : Store} : read? text = some s → Reached s
  | apply {s t : Store} {us : List FormulaUpdate} : Reached s →
    (∀ u ∈ us, ∀ at' ∈ u.generatedAt, at'.Valid) → s.applyFormulas us = .ok t → Reached t
  | synthesize {s : Store} (z : Synthesizer) {clock : Clock} : Reached s →
    (∀ worker i, (clock worker i).Valid) → Reached (s.synthesizeBy z clock).1

lemma Reached.synthesize_const {s : Store} (h : Reached s) {now : Instant} (hnow : now.Valid)
    (batchSize workers : Nat) : Reached (s.synthesize now batchSize workers).1 := by
  rw [synthesize_eq_synthesizeBy]
  exact h.synthesize _ fun _ _ => hnow

lemma forall_of_read? {text : String} {s : Store} (h : read? text = some s) :
    ∀ e ∈ s.entries, e.Tidy footnoteRoom := by
  obtain ⟨d, hd, h⟩ := Option.bind_eq_some_iff.mp h
  obtain ⟨es, hes, rfl⟩ := Option.map_eq_some_iff.mp h
  have hranged := Json.ranged_read? hd
  cases hranged with
  | array hds =>
    intro e he
    obtain ⟨d', hd', hread⟩ := exists_of_mem_mapM hes he
    exact Entry.tidy_of_ofDocument? (hds d' hd') hread
  | null | bool | number | string | object => cases hes

/-- **The entries of a store that comes from a snapshot are tidy.** -/
theorem Reached.tidy {s : Store} (h : Reached s) : ∀ e ∈ s.entries, e.Tidy footnoteRoom := by
  induction h with
  | load h => exact forall_of_read? h
  | apply _ hus h ih =>
    obtain ⟨targets, -, h⟩ := bind_eq_ok.mp h
    cases h
    refine forall_mem_writeAt (fun e u he hu => he.applyFormula hu) ih fun p hp => ?_
    exact hus p.2 (List.of_mem_zip hp).2
  | synthesize z _ hclock ih =>
    rw [synthesizeBy_eq]
    refine forall_mem_writeAt (fun e u he hu => he.applySynthesis hu) ih
      (forall_mem_addressed (fun u hu => ?_) _)
    obtain ⟨x, hx, rfl⟩ := List.mem_map.mp hu
    obtain ⟨worker, i, e, -, rfl⟩ := z.exists_of_mem_plan (List.mem_filter.mp hx).1
    intro t ht
    cases ht
    exact hclock worker i

/-! ### Runs -/

def Step.Dated : Step → Prop
  | .compile _ now => ∀ t ∈ now, t.Valid
  | .synthesize now _ _ => now.Valid

lemma generatedAt_of_mem_answer {c : Compilation.Compiler} {now : Option Instant}
    {es : List Entry} {u : FormulaUpdate} (h : u ∈ (c.answer now es).2.updates) :
    u.generatedAt = now := by
  rw [Compilation.updates_answer, List.mem_append] at h
  rcases h with h | h
  all_goals
    obtain ⟨x, -, hu⟩ := List.mem_filterMap.mp h
    obtain ⟨f, -, rfl⟩ := Option.map_eq_some_iff.mp hu
    rfl

/-- Compile passes and syntheses are writes of formulas and syntheses. -/
theorem Reached.run {s t : Store} (h : Reached s) {steps : List Step} (hd : ∀ a ∈ steps, a.Dated)
    (ht : s.run steps = .ok t) : Reached t := by
  induction steps generalizing s with
  | nil => cases ht; exact h
  | cons a rest ih =>
    rw [List.forall_mem_cons] at hd
    obtain ⟨r, hr, ht⟩ := bind_eq_ok.mp ht
    refine ih ?_ hd.2 ht
    cases a with
    | compile c now =>
      have hw := applyFormulas_eq (s.admits_answer c now)
      rw [step_compile_ok hr]
      refine .apply h (fun u hu t ht => ?_) hw
      rw [generatedAt_of_mem_answer hu] at ht
      exact hd.1 t ht
    | synthesize now batchSize workers =>
      rw [step_synthesize] at hr
      cases hr
      have hnext := h.synthesize_const hd.1 batchSize workers
      rwa [synthesize_eq] at hnext

/-! ### Saving and loading -/

lemma read?_render (s : Store) :
    read? s.render = ((printed s.toJson).list? (Entry.ofDocument? footnoteRoom)).map ofEntries := by
  unfold read? render
  rw [Json.read?_pretty]
  rfl

lemma read?_render_iff {s : Store} (h : ∀ e ∈ s.entries, e.Tidy footnoteRoom) :
    read? s.render = some (ofEntries s.entries) ↔ ∀ e ∈ s.entries, e.Persists := by
  have hread : (printed s.toJson).list? (Entry.ofDocument? footnoteRoom) = some s.entries ↔
      ∀ e ∈ s.entries, e.Persists := by
    unfold toJson
    rw [Json.list?_printed]
    exact forall₂_congr fun e he => Entry.ofDocument?_printed (h e he)
  rw [← hread, read?_render, Option.map_eq_some_iff]
  constructor
  · rintro ⟨es, hes, heq⟩
    rw [hes]
    exact congrArg (some ·.entries) heq
  · intro hs
    exact ⟨_, hs, rfl⟩

lemma ofEntries_of_read? {text : String} {s : Store} (h : read? text = some s) :
    s = ofEntries s.entries := by
  obtain ⟨d, -, h⟩ := Option.bind_eq_some_iff.mp h
  obtain ⟨es, -, rfl⟩ := Option.map_eq_some_iff.mp h
  rfl

lemma reached_of_plain {es : List Entry} (h : ∀ e ∈ es, e.Plain) : Reached (ofEntries es) := by
  have hread : read? (ofEntries es).render = some (ofEntries es) :=
    (read?_render_iff fun e he => (h e he).tidy).mpr fun e he => (h e he).persists
  exact .load hread

/-- **A store is loaded as it was saved** exactly if each entry is, and then a synthesis finds the
same as without. -/
theorem reload_iff {s : Store} (h : Reached s) :
    (∃ t, read? s.render = some t ∧ t.entries = s.entries ∧ ∀ z clock,
      (t.synthesizeBy z clock).2 = (s.synthesizeBy z clock).2 ∧
        (t.synthesizeBy z clock).1.entries = (s.synthesizeBy z clock).1.entries) ↔
      ∀ e ∈ s.entries, e.Persists := by
  rw [← read?_render_iff h.tidy]
  constructor
  · rintro ⟨t, ht, hentries, -⟩
    rw [ht, ofEntries_of_read? ht, hentries]
  · intro ht
    refine ⟨_, ht, rfl, fun z clock => ?_⟩
    -- the stores differ in nothing but the batches written before
    rw [synthesizeBy_eq, synthesizeBy_eq]
    exact ⟨rfl, rfl⟩

/-- A pass keeps the entries fit to be saved if its confidences are. -/
lemma persists_compiled {s : Store} (h : ∀ e ∈ s.entries, e.Persists) (c : Compilation.Compiler)
    (now : Option Instant)
    (hu : ∀ u ∈ (c.answer now s.entries).2.updates, Json.Persists u.compiled.confidence) :
    ∀ e ∈ s.compiled c now, e.Persists :=
  forall_mem_writeAt (fun _ _ he hu => he.applyFormula hu) h (forall_mem_addressed hu _)

lemma persists_synthesized {s : Store} (h : ∀ e ∈ s.entries, e.Persists) (now : Instant)
    (hu : ∀ u ∈ Synthesis.updates now s.entries, ∀ x ∈ u.provenance.adjustmentRate,
      Json.Persists x) :
    ∀ e ∈ s.synthesized now, e.Persists :=
  forall_mem_writeAt (fun _ _ he hu => he.applySynthesis hu) h (forall_mem_addressed hu _)

/-- A heading of an additional duty, and an entry that refers to it. -/
def referring (duty : String) : Store := ofEntries [
  { code := "9903.88.03"
    chapter := "99"
    general := { text := some ("The duty provided in the applicable subheading + " ++ duty) } },
  { code := "0101"
    chapter := "01"
    general := { text := some "5%" }
    footnotes := some (.text "See 9903.88.03.") }]

lemma plain_referring (duty : String) : ∀ e ∈ (referring duty).entries, e.Plain := by
  intro e he
  simp only [referring, ofEntries, List.mem_cons, List.not_mem_nil, or_false] at he
  rcases he with rfl | rfl <;> exact Entry.plain_of_none rfl rfl rfl (by simp) rfl

/-- After a compile pass and a synthesis, a store is loaded as it was saved. -/
theorem reload_linked : ∃ s, Reached s ∧
    (referring "25%").run [.compile ⟨none⟩ (some ⟨0, 0⟩), .synthesize ⟨1, 0⟩ 250 4] = .ok s ∧
    (s.get? "0101").bind (·.adjusted) = some "(value * 0.05) + (value * 0.25)" ∧
    ∃ t, read? s.render = some t ∧ t.entries = s.entries ∧ ∀ z clock,
      (t.synthesizeBy z clock).2 = (s.synthesizeBy z clock).2 ∧
        (t.synthesizeBy z clock).1.entries = (s.synthesizeBy z clock).1.entries := by
  set s₀ := referring "25%"
  set s₁ : Store := ⟨s₀.compiled ⟨none⟩ (some ⟨0, 0⟩), 0⟩
  have hplain := plain_referring "25%"
  have hwritable : Compilation.Writable s₀.entries :=
    List.findSome?_eq_none_iff.mp (by decide +kernel)
  have hcompile : s₀.step (.compile ⟨none⟩ (some ⟨0, 0⟩)) = .ok s₁ := by
    rw [step_compile, Compilation.pass_eq_ok_iff.mpr ⟨hwritable, rfl⟩]
    rfl
  have hrun : s₀.run [.compile ⟨none⟩ (some ⟨0, 0⟩), .synthesize ⟨1, 0⟩ 250 4] =
      .ok ⟨s₁.synthesized ⟨1, 0⟩, s₁.batches +
        (Synthesis.batches 250 (Synthesis.outcomes ⟨1, 0⟩ s₁.entries)).length⟩ :=
    bind_eq_ok.mpr ⟨s₁, hcompile, bind_eq_ok.mpr ⟨_, s₁.step_synthesize ⟨1, 0⟩ 250 4, rfl⟩⟩
  have hreached := (reached_of_plain hplain).run (by
    have hvalid : Instant.Valid ⟨0, 0⟩ ∧ Instant.Valid ⟨1, 0⟩ :=
      ⟨⟨by decide, by decide, by decide⟩, ⟨by decide, by decide, by decide⟩⟩
    simpa [Step.Dated] using hvalid) hrun
  have hcompiled : ∀ e ∈ s₁.entries, e.Persists :=
    persists_compiled (fun e he => (hplain e he).persists) ⟨none⟩ (some ⟨0, 0⟩) (by decide +kernel)
  have hpersists : ∀ e ∈ s₁.synthesized ⟨1, 0⟩, e.Persists :=
    persists_synthesized hcompiled ⟨1, 0⟩ (by decide +kernel)
  exact ⟨_, hreached, hrun, by decide +kernel, (reload_iff hreached).mpr hpersists⟩

/-- A rate of 1.1 percent is held as a hundredth of the number nearest to 1.1. The digits of that
number are read as another one, which the next synthesis takes for a change. -/
theorem reload_additional_duty :
    let heading : Entry := {
      code := "9903.88.03", chapter := "99"
      general := { text := some "The duty provided in the applicable subheading + 1.1%" } }
    let e : Entry := {
      code := "0101", chapter := "01", general := { formula := some "0" }
      footnotes := some (.text "See 9903.88.03.") }
    let s := ((ofEntries [heading, e]).synthesize ⟨0, 0⟩ 250 4).1
    Reached s ∧ (s.synthesize ⟨1, 0⟩ 250 4).2 = .ok ⟨1, 0, 1, 0, 1⟩ ∧
      ∃ t, read? s.render = some t ∧ t.entries ≠ s.entries ∧
        (t.synthesize ⟨1, 0⟩ 250 4).2 = .ok ⟨1, 1, 1, 0, 1⟩ := by
  intro heading e s
  have hplain : ∀ x ∈ [heading, e], x.Plain := by
    intro x hx
    simp only [List.mem_cons, List.not_mem_nil, or_false] at hx
    rcases hx with rfl | rfl
    · exact Entry.plain_of_none rfl rfl rfl (by simp [heading]) rfl
    · exact Entry.plain_of_none rfl rfl rfl (by simp [e]) rfl
  have hepoch : Instant.Valid ⟨0, 0⟩ := ⟨by decide, by decide, by decide⟩
  have hentries : s.entries = (ofEntries [heading, e]).synthesized ⟨0, 0⟩ := by
    unfold s
    rw [synthesize_eq]
  have hstable : Synthesis.stats (Synthesis.outcomes ⟨1, 0⟩
      ((ofEntries [heading, e]).synthesized ⟨0, 0⟩)) = ⟨1, 0, 1, 0, 1⟩ := by
    decide +kernel
  have hreload : ((printed (.array (((ofEntries [heading, e]).synthesized ⟨0, 0⟩).map
      Entry.toJson))).list? (Entry.ofDocument? footnoteRoom)).map (fun es =>
        Synthesis.stats (Synthesis.outcomes ⟨1, 0⟩ es)) = some ⟨1, 1, 1, 0, 1⟩ := by
    decide +kernel
  rw [← hentries] at hstable hreload
  obtain ⟨es, hes, hstats⟩ := Option.map_eq_some_iff.mp hreload
  refine ⟨(reached_of_plain hplain).synthesize_const hepoch 250 4, ?_, ofEntries es, ?_, ?_, ?_⟩
  · rw [synthesize_eq, hstable]
  · rw [read?_render, toJson, hes]
    rfl
  · intro heq
    rw [← heq, show (ofEntries es).entries = es from rfl, hstats] at hstable
    cases hstable
  · rw [synthesize_eq, show (ofEntries es).entries = es from rfl, hstats]

end Store

end Tariff
