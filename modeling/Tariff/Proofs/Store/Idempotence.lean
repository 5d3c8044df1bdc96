import Tariff.Proofs.Store.Writes
import Tariff.Proofs.Synthesis.Settled

/-!
Two syntheses of a store in which each code names one entry. The first leaves each entry settled;
the second finds nothing to write but for the entries that the first wrote an empty list of
countries onto.
-/

namespace Tariff

open Synthesis (ordinary outcomes settle updates stats)
open Adjustment (Headings NamesNoCountry)

/-! ### Headings -/

lemma Adjustment.Headings.ofEntries_map {f : Entry → Entry} (es : List Entry)
    (hf : ∀ e, f e = e ∨ e.isAdditionalDuty = false ∧ (f e).isAdditionalDuty = false) :
    Headings.ofEntries (es.map f) = Headings.ofEntries es := by
  have hinsert (h : Headings) (e : Entry) : h.insert (f e) = h.insert e := by
    rcases hf e with he | ⟨h1, h2⟩
    · rw [he]
    · simp [Headings.insert, h1, h2]
  unfold Headings.ofEntries
  rw [List.foldl_map]
  simp only [hinsert]

namespace Store

def settled (now : Instant) (h : Headings) (e : Entry) : Entry :=
  if e.isAdditionalDuty then e else settle now h e

lemma isAdditionalDuty_settled (now : Instant) (h : Headings) (e : Entry) :
    (settled now h e).isAdditionalDuty = e.isAdditionalDuty := by
  unfold settled settle
  split_ifs <;> rfl

lemma ofEntries_settled (now : Instant) (h : Headings) (es : List Entry) :
    Headings.ofEntries (es.map (settled now h)) = Headings.ofEntries es := by
  refine Headings.ofEntries_map es fun e => ?_
  cases he : e.isAdditionalDuty with
  | true => exact .inl (if_pos he)
  | false => exact .inr ⟨rfl, by rw [isAdditionalDuty_settled, he]⟩

lemma ordinary_settled (now : Instant) (h : Headings) (es : List Entry) :
    ordinary (es.map (settled now h)) = (ordinary es).map (settle now h) := by
  unfold ordinary
  rw [List.filter_map, List.filter_congr fun e _ => ?_]
  · refine List.map_congr_left fun e he => if_neg ?_
    simpa using (List.mem_filter.mp he).2
  · rw [Function.comp_apply, isAdditionalDuty_settled]

/-! ### Distinct codes -/

/-- With distinct codes each entry is written with its own synthesis. -/
lemma synthesized_eq_map {s : Store} (hd : (s.entries.map (·.code)).Nodup) (now : Instant) :
    s.synthesized now = s.entries.map (settled now (Headings.ofEntries s.entries)) := by
  refine List.ext_getElem? fun i => ?_
  rw [List.getElem?_map]
  cases he : s.entries[i]? with
  | none =>
    unfold synthesized
    rw [getElem?_writeAt, he]
    rfl
  | some e =>
    have hmem := List.mem_of_getElem? he
    rw [getElem?_synthesized now he, if_pos (place?_of_nodup hd he), Synthesis.filter_updates]
    unfold ordinary settled settle
    rw [List.filter_comm, filter_code_of_nodup hd hmem]
    cases ha : e.isAdditionalDuty with
    | true => simp [ha]
    | false =>
      cases hc : (Synthesis.ofEntry now (Headings.ofEntries s.entries) e).changed <;> simp [ha, hc]

lemma ordinary_synthesized {s : Store} (hd : (s.entries.map (·.code)).Nodup) (now : Instant) :
    ordinary (s.synthesized now) =
      (ordinary s.entries).map (settle now (Headings.ofEntries s.entries)) := by
  rw [synthesized_eq_map hd now, ordinary_settled]

lemma ofEntries_synthesized {s : Store} (hd : (s.entries.map (·.code)).Nodup) (now : Instant) :
    Headings.ofEntries (s.synthesized now) = Headings.ofEntries s.entries := by
  rw [synthesized_eq_map hd now, ofEntries_settled]

/-! ### The second run -/

/-- A synthesis that finds no change leaves the store as it is. -/
lemma synthesize_of_unchanged {s : Store} {now : Instant} (size workers : Nat)
    (h : ∀ x ∈ outcomes now s.entries, x.changed = false) :
    s.synthesize now size workers = (s, .ok (stats (outcomes now s.entries))) := by
  have hf : (outcomes now s.entries).filter (·.changed) = [] :=
    List.filter_eq_nil_iff.mpr fun x hx => by simp [h x hx]
  have hb : Synthesis.batches size (outcomes now s.entries) = [] := by
    unfold Synthesis.batches
    rw [hf]
    unfold chunks
    rfl
  have hs : s.synthesized now = s.entries := by
    unfold synthesized updates
    rw [hf]
    rfl
  rw [synthesize_eq, hb, hs]
  rfl

/-- **A second synthesis** writes nothing and leaves the store as it is, exactly when the first
wrote onto no entry whose list of countries without normal trade relations names none. -/
theorem synthesize_twice {s : Store} (hd : (s.entries.map (·.code)).Nodup) (now now' : Instant)
    (size size' workers workers' : Nat) :
    ∃ t r t' r', s.synthesize now size workers = (t, .ok r) ∧
      t.synthesize now' size' workers' = (t', .ok r') ∧
      ((r'.updated = 0 ∧ t' = t) ↔ ∀ e ∈ ordinary s.entries, NamesNoCountry e →
        (Synthesis.ofEntry now (Headings.ofEntries s.entries) e).changed = false) := by
  set h := Headings.ofEntries s.entries
  refine ⟨_, _, _, _, synthesize_eq s now size workers, synthesize_eq _ now' size' workers', ?_⟩
  set t : Store := ⟨s.synthesized now,
    s.batches + (Synthesis.batches size (outcomes now s.entries)).length⟩
  -- the second run sees the settled entries and the same headings
  have hout : outcomes now' t.entries =
      ((ordinary s.entries).map (settle now h)).map (Synthesis.ofEntry now' h) := by
    have ht : t.entries = s.entries.map (settled now h) := synthesized_eq_map hd now
    unfold outcomes
    rw [ht, ordinary_settled, ofEntries_settled]
  have hchanged : (∀ x ∈ outcomes now' t.entries, x.changed = false) ↔
      ∀ e ∈ ordinary s.entries, NamesNoCountry e →
        (Synthesis.ofEntry now h e).changed = false := by
    rw [hout]
    simp only [List.forall_mem_map, ← Bool.not_eq_true, Synthesis.changed_settle]
    exact forall₂_congr fun e _ => ⟨fun hn hl hc => hn ⟨hc, hl⟩, fun hn hc => hn hc.2 hc.1⟩
  rw [← hchanged]
  constructor
  · rintro ⟨hu, -⟩ x hx
    simpa using List.countP_eq_zero.mp hu x hx
  · intro hx
    have := synthesize_of_unchanged size' workers' hx
    rw [synthesize_eq, Prod.mk.injEq] at this
    exact ⟨List.countP_eq_zero.mpr fun x hm => by simp [hx x hm], this.1⟩

/-- A heading, and an entry that refers to it and holds what was derived from something else. -/
def stale : Store := ofEntries [
  { code := "9903.88.03"
    chapter := "99"
    general := { text := some "The duty provided in the applicable subheading + 25%" } },
  { code := "0101"
    chapter := "01"
    general := { formula := some "weight * 2" }
    footnotes := some (.text "See 9903.88.03.")
    links := some ["9903.01.25"]
    countries := some ["CN"]
    nonNtr := some ["ru", "cu"]
    adjusted := some "(0) + (value * 0.1)"
    adjustedVariables := some [.value]
    provenance := some ⟨.linked, some "9903.01.25", some 1, true, none, true, some ⟨0, 0⟩⟩ }]

theorem synthesize_twice_stale :
    (stale.entries.map (·.code)).Nodup ∧
    ∃ t r t' r', stale.synthesize ⟨1, 0⟩ 250 4 = (t, .ok r) ∧
      t.synthesize ⟨2, 0⟩ 1 2 = (t', .ok r') ∧ r.updated = 1 ∧ r'.updated = 0 ∧ t' = t := by
  have hd : (stale.entries.map (·.code)).Nodup := by decide
  obtain ⟨t, r, t', r', ht, ht', hiff⟩ := synthesize_twice hd ⟨1, 0⟩ ⟨2, 0⟩ 250 1 4 2
  have hr : r = stats (outcomes ⟨1, 0⟩ stale.entries) :=
    Except.ok.inj (congrArg Prod.snd (ht.symm.trans (synthesize_eq _ _ _ _)))
  have hnames : ∀ e ∈ ordinary stale.entries, Adjustment.nonNtrCountries e ≠ [] := by
    decide +kernel
  obtain ⟨hnone, hsame⟩ := hiff.mpr fun e he hblank =>
    absurd (Adjustment.nonNtrCountries_eq_nil_iff.mpr hblank) (hnames e he)
  exact ⟨hd, t, r, t', r', ht, ht', by rw [hr]; decide +kernel, hnone, hsame⟩

/-- A list with one blank text is written twice: as an empty list, and then as the default one. -/
theorem synthesize_blank_list :
    let s := ofEntries [{ code := "0101", chapter := "01", nonNtr := some [" "] }]
    (s.entries.map (·.code)).Nodup ∧
      ((s.synthesize ⟨0, 0⟩ 250 4).1.synthesize ⟨1, 0⟩ 250 4).2 = .ok ⟨1, 1, 0, 0, 1⟩ := by
  dsimp only
  rw [synthesize_eq, synthesize_eq]
  exact ⟨by decide, congrArg Except.ok (by decide +kernel)⟩

end Store

end Tariff
