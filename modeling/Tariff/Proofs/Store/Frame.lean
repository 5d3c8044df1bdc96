import Mathlib.Data.List.Forall2
import Tariff.Proofs.Store.Idempotence
import Tariff.Proofs.Store.Index

/-!
What syntheses leave alone. Each update of a synthesis bears the code of an ordinary entry, so with
distinct codes no heading is ever written to; and of an ordinary entry nothing is written but what
is derived.
-/

namespace Tariff

open Adjustment (Headings)
open Synthesis (ordinary)

/-- What may become of an entry: a heading of additional duties stays as it is, and any other entry
keeps all but its links, the two lists of countries, the adjusted formula with its variables, and
the account of the synthesis. -/
structure Entry.Framed (e e' : Entry) : Prop where
  heading : e.isAdditionalDuty = true → e' = e
  rest : e' = { e with
    links := e'.links, countries := e'.countries, nonNtr := e'.nonNtr, adjusted := e'.adjusted,
    adjustedVariables := e'.adjustedVariables, provenance := e'.provenance }

namespace Entry.Framed

variable {e e' e'' : Entry}

lemma refl (e : Entry) : e.Framed e := ⟨fun _ => rfl, rfl⟩

lemma code (h : e.Framed e') : e'.code = e.code := by rw [h.rest]

lemma isAdditionalDuty (h : e.Framed e') : e'.isAdditionalDuty = e.isAdditionalDuty := by
  rw [h.rest]
  rfl

lemma trans (h : e.Framed e') (h' : e'.Framed e'') : e.Framed e'' where
  heading he := by
    have he' : e' = e := h.heading he
    rw [h'.heading (he' ▸ he), he']
  rest := by
    rw [h'.rest, h.rest]

lemma foldl_applySynthesis (h : e.Framed e') (he : e.isAdditionalDuty = false)
    (us : List EntryUpdate) : e.Framed (us.foldl Entry.applySynthesis e') := by
  induction us generalizing e' with
  | nil => exact h
  | cons u us ih =>
    refine ih ⟨fun ha => ?_, ?_⟩
    · rw [he] at ha
      cases ha
    · rw [applySynthesis, h.rest]

end Entry.Framed

/-! ### Lists of entries -/

abbrev Framed : List Entry → List Entry → Prop := List.Forall₂ Entry.Framed

namespace Framed

variable {es es' : List Entry}

lemma refl (es : List Entry) : Framed es es := List.forall₂_same.mpr fun e _ => .refl e

lemma codes (h : Framed es es') : es'.map (·.code) = es.map (·.code) := by
  induction h with
  | nil => rfl
  | cons he _ ih => rw [List.map_cons, List.map_cons, he.code, ih]

lemma trans {es'' : List Entry} (h : Framed es es') (h' : Framed es' es'') : Framed es es'' := by
  induction h generalizing es'' with
  | nil => exact h'
  | cons he _ ih =>
    cases h' with
    | cons he' h' => exact .cons (he.trans he') (ih h')

/-- The headings are the same, so whatever refers to them finds the same. -/
lemma headings (h : Framed es es') : Headings.ofEntries es' = Headings.ofEntries es := by
  unfold Headings.ofEntries
  generalize (⟨[]⟩ : Headings) = hs
  induction h generalizing hs with
  | nil => rfl
  | @cons e e' _ _ he _ ih =>
    have hinsert : hs.insert e' = hs.insert e := by
      cases ha : e.isAdditionalDuty with
      | true => rw [he.heading ha]
      | false => simp [Headings.insert, ha, he.isAdditionalDuty]
    rw [List.foldl_cons, List.foldl_cons, hinsert, ih]

end Framed

lemma framed_iff {es es' : List Entry} : Framed es es' ↔ es.length = es'.length ∧
    ∀ (i : Nat) e e', es[i]? = some e → es'[i]? = some e' → e.Framed e' := by
  rw [Framed, List.forall₂_iff_get]
  refine and_congr_right fun _ => ⟨fun h i e e' he he' => ?_, fun h i hi hi' => ?_⟩
  · obtain ⟨hi, rfl⟩ := List.getElem?_eq_some_iff.mp he
    obtain ⟨hi', rfl⟩ := List.getElem?_eq_some_iff.mp he'
    exact h i hi hi'
  · exact h i _ _ (List.getElem?_eq_getElem hi) (List.getElem?_eq_getElem hi')

/-! ### Plans -/

/-- What a plan has to write bears the code of an ordinary entry. -/
lemma Synthesizer.exists_of_mem_changes {z : Synthesizer} {clock : Clock} {es : List Entry}
    {u : EntryUpdate} (h : u ∈ Synthesis.changes (z.plan clock es)) :
    ∃ e ∈ es, e.isAdditionalDuty = false ∧ e.code = u.code := by
  obtain ⟨x, hx, rfl⟩ := List.mem_map.mp h
  obtain ⟨worker, i, e, he, rfl⟩ := z.exists_of_mem_plan (List.mem_filter.mp hx).1
  obtain ⟨hmem, hordinary⟩ := List.mem_filter.mp he
  exact ⟨e, hmem, by simpa using hordinary, rfl⟩

namespace LiveStore

variable {s : LiveStore}

/-- The index sends no update with the code of an ordinary entry to a heading. -/
lemma lookup_ne_of_heading {t : LiveStore} (ht : Framed s.entries t.entries)
    (hd : (s.entries.map (·.code)).Nodup) {i : Nat} {e o : Entry} (he : s.entries[i]? = some e)
    (ha : e.isAdditionalDuty = true) (ho : o ∈ s.entries) (hordinary : o.isAdditionalDuty = false) :
    t.places.lookup o.code ≠ some i := by
  intro hplace
  rw [t.exact, Store.lastPlace?_eq_some_iff] at hplace
  obtain ⟨⟨x, hx, hcode⟩, -⟩ := hplace
  have hsame : e.code = o.code := by
    rw [← ((framed_iff.mp ht).2 i e x he hx).code, hcode]
  rw [List.inj_on_of_nodup_map hd (List.mem_of_getElem? he) ho hsame, hordinary] at ha
  cases ha

/-- Updates with the codes of ordinary entries leave the frame as it is. -/
lemma keeps_framed (hd : (s.entries.map (·.code)).Nodup) {us : List EntryUpdate}
    (hus : ∀ u ∈ us, ∃ e ∈ s.entries, e.isAdditionalDuty = false ∧ e.code = u.code) :
    (writeBatch us).Keeps fun t => Framed s.entries t.entries := by
  refine .bind (fun t ht => ?_) fun _ _ ht => ht
  rcases t.writeAll_spec syntheses us with ⟨e, hw, -⟩ | ⟨hadmits, hw⟩
  · rw [hw]
    exact ht
  rw [hw]
  obtain ⟨hlen, hframed⟩ := framed_iff.mp ht
  refine framed_iff.mpr ⟨?_, fun i e e'' he he'' => ?_⟩
  · have hcodes := congrArg List.length (t.map_code_written syntheses us)
    rw [List.length_map, List.length_map] at hcodes
    rw [hcodes, hlen]
  · rw [getElem?_written hadmits, Option.map_eq_some_iff] at he''
    obtain ⟨e', he', rfl⟩ := he''
    have hsame := hframed i e e' he he'
    cases ha : e.isAdditionalDuty with
    | false => exact hsame.foldl_applySynthesis ha _
    | true =>
      have hnone : us.filter (fun u => t.places.lookup (syntheses.code u) = some i) = [] := by
        rw [List.filter_eq_nil_iff]
        intro u hu hplace
        obtain ⟨o, ho, hordinary, hcode⟩ := hus u hu
        refine lookup_ne_of_heading ht hd he ha ho hordinary ?_
        rw [hcode]
        exact of_decide_eq_true hplace
      rw [hnone]
      exact hsame

lemma framed_synthesizeBy (hd : (s.entries.map (·.code)).Nodup) (z : Synthesizer) (clock : Clock) :
    Framed s.entries (s.perform (synthesizeBy z clock)).2.entries := by
  refine keeps_synthesizeBy (P := fun t => Framed s.entries t.entries) (.refl _) fun b hb => ?_
  refine keeps_framed hd fun u hu => ?_
  have hmem : u ∈ Synthesis.changes (z.plan clock s.entries) := by
    rw [← flatten_chunks z.batchSize (Synthesis.changes (z.plan clock s.entries))]
    exact List.mem_flatten_of_mem hb hu
  exact Synthesizer.exists_of_mem_changes hmem

def synthesizedBy (s : LiveStore) (runs : List (Synthesizer × Clock)) : LiveStore :=
  s.acts (runs.map fun run => .synthesize run.1 run.2)

/-- **The frame of a synthesis**: however often the entries of a store are synthesized, headings
stay as they are, and so does all of an ordinary entry that is not derived. So every synthesis
finds the same headings. -/
theorem synthesize_frame (hd : (s.entries.map (·.code)).Nodup) (runs : List (Synthesizer × Clock)) :
    Framed s.entries (s.synthesizedBy runs).entries ∧
      Headings.ofEntries (s.synthesizedBy runs).entries = Headings.ofEntries s.entries := by
  have hframed : Framed s.entries (s.synthesizedBy runs).entries := by
    induction runs generalizing s with
    | nil => exact .refl _
    | cons run runs ih =>
      have hfirst := framed_synthesizeBy hd run.1 run.2
      exact hfirst.trans (ih (by rwa [hfirst.codes]))
  exact ⟨hframed, hframed.headings⟩

theorem synthesize_frame_linked :
    let s := ofEntries [
      { code := "9903.88.03"
        chapter := "99"
        general := { text := some "The duty provided in the applicable subheading + 25%" } },
      { code := "0101"
        general := { formula := some "value * 0.05" }
        links := some ["9903.88.03"]
        nonNtr := some [" "] }]
    let runs : List (Synthesizer × Clock) :=
      [(({} : Synthesizer).withWorkers 4, fun worker i => ⟨worker + i, 0⟩), ({}, fun _ _ => ⟨9, 0⟩)]
    (s.entries.map (·.code)).Nodup ∧ Framed s.entries (s.synthesizedBy runs).entries ∧
      Headings.ofEntries (s.synthesizedBy runs).entries = Headings.ofEntries s.entries := by
  intro s runs
  have hd : (s.entries.map (·.code)).Nodup := by decide
  exact ⟨hd, synthesize_frame hd runs⟩

end LiveStore

end Tariff
