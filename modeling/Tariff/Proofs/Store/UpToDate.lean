import Tariff.Proofs.Store.Duplicates
import Tariff.Proofs.Store.Idempotence

/-!
What a synthesis leaves is up to date, as far as it looks for changes. It compares all that it
would write with what the entry holds, but for the variables of the adjusted formula: those of an
entry that is not written stay as they are, whether they are right or not.
-/

namespace Tariff

open Adjustment (Headings NamesNoCountry normalizeCountries)
open Synthesis (differs ofEntry ordinary outcomes settle)

/-- The entry holds what the update says, but for the variables of the adjusted formula. The form
of the lists and the time of the synthesis do not matter. -/
structure EntryUpdate.HeldBy (u : EntryUpdate) (e : Entry) : Prop where
  links : normalizeLinks (e.links.getD []) = u.links
  countries : e.countries.map normalizeCountries = u.countries
  nonNtr : normalizeCountries (e.nonNtr.getD []) = u.nonNtr
  adjusted : e.adjusted = u.adjusted
  provenance : ∃ p, e.provenance = some p ∧ p.sameOutcome u.provenance = true

namespace Entry

/-- The variables that the entry holds are those of its adjusted formula; without a formula there
are none. -/
def NamesVariables (e : Entry) : Prop := e.adjustedVariables = e.adjusted.map Variable.named

/-- The entries differ in nothing but the form of their lists and the time of the synthesis. A
missing list of links, or of countries without normal trade relations, counts as an empty one. -/
structure Alike (a b : Entry) : Prop where
  links : normalizeLinks (a.links.getD []) = normalizeLinks (b.links.getD [])
  countries : a.countries.map normalizeCountries = b.countries.map normalizeCountries
  nonNtr : normalizeCountries (a.nonNtr.getD []) = normalizeCountries (b.nonNtr.getD [])
  provenance : Option.Rel (fun p q => p.sameOutcome q = true) a.provenance b.provenance
  rest : b = { a with
    links := b.links, countries := b.countries, nonNtr := b.nonNtr, provenance := b.provenance }

end Entry

namespace Synthesis

variable (now now' : Instant) (h : Headings) (e : Entry)

/-! ### One entry -/

lemma differs_eq_false_iff {e : Entry} {u : EntryUpdate} : differs e u = false ↔ u.HeldBy e := by
  unfold differs
  simp only [Bool.or_eq_false_iff, bne_eq_false_iff_eq, Bool.not_eq_eq_eq_not, Bool.not_false,
    Option.any_eq_true]
  constructor
  · rintro ⟨⟨⟨⟨hl, hc⟩, hn⟩, ha⟩, hp⟩
    exact ⟨hl, hc, hn, ha, hp⟩
  · rintro ⟨hl, hc, hn, ha, hp⟩
    exact ⟨⟨⟨⟨hl, hc⟩, hn⟩, ha⟩, hp⟩

lemma changed_eq_false_iff : (ofEntry now h e).changed = false ↔
    (ofEntry now h e).update.HeldBy e :=
  differs_eq_false_iff

lemma normal_update : normalizeLinks (ofEntry now h e).update.links = (ofEntry now h e).update.links ∧
    (ofEntry now h e).update.countries.map normalizeCountries =
      (ofEntry now h e).update.countries ∧
    normalizeCountries (ofEntry now h e).update.nonNtr = (ofEntry now h e).update.nonNtr := by
  have hn : (ofEntry now h e).update.nonNtr = Adjustment.nonNtrCountries e :=
    Adjustment.nonNtr_ofEntry e e.resolveLinks h
  refine ⟨normalizeLinks_resolveLinks e, Adjustment.normalizeCountries_countries e e.resolveLinks h,
    ?_⟩
  rw [hn, (Adjustment.normal_nonNtrCountries e).normalizeCountries_eq]

lemma adjustedVariables_update : (ofEntry now h e).update.adjusted.map
    (fun _ => (ofEntry now h e).update.adjustedVariables) =
      (ofEntry now h e).update.adjusted.map Variable.named := by
  have hv : (ofEntry now h e).update.adjustedVariables =
      ((ofEntry now h e).update.adjusted.map Variable.named).getD [] := rfl
  rw [hv]
  cases (ofEntry now h e).update.adjusted <;> rfl

lemma namesVariables_written : (written now h e).NamesVariables :=
  adjustedVariables_update now h e

lemma heldBy_settle : (ofEntry now h e).update.HeldBy (settle now h e) := by
  rw [← differs_eq_false_iff]
  unfold settle
  split_ifs with hc
  · exact (differs_applySynthesis now h e e _).mpr (agrees_self now h e)
  · exact Bool.eq_false_iff.mpr hc

lemma namesVariables_settle : (settle now h e).NamesVariables ↔
    (ofEntry now h e).changed = true ∨ e.NamesVariables := by
  unfold settle
  split_ifs with hc
  · exact iff_of_true (namesVariables_written now h e) (.inl hc)
  · rw [or_iff_right hc]

/-- The adjusted formula is the one found for the entry as it is now. -/
lemma adjusted_settle : (settle now h e).adjusted =
    (Adjustment.ofEntry (settle now h e) (settle now h e).resolveLinks h).adjusted := by
  have hheld := (heldBy_settle now h e).adjusted
  have hlinks : (settle now h e).resolveLinks = e.resolveLinks := by
    unfold settle
    split_ifs
    · exact resolveLinks_written now h e
    · rfl
  have hbase : (settle now h e).general.formula = e.general.formula := by
    unfold settle
    split_ifs <;> rfl
  rw [hheld, hlinks, Adjustment.ofEntry_congr hbase]
  rfl

/-- To write a synthesis changes nothing but the form of lists and the time, if no change was seen
and the variables are right. -/
lemma alike_written : e.Alike (written now h e) ↔
    (ofEntry now h e).changed = false ∧ e.NamesVariables := by
  obtain ⟨hlinks, hcountries, hnonNtr⟩ := normal_update now h e
  have hvariables := adjustedVariables_update now h e
  set u := (ofEntry now h e).update
  have hwritten : written now h e = e.applySynthesis u := rfl
  rw [changed_eq_false_iff, hwritten]
  constructor
  · rintro ⟨hl, hc, hn, hp, hrest⟩
    have hadjusted : u.adjusted = e.adjusted := congrArg Entry.adjusted hrest
    have hkept : u.adjusted.map (fun _ => u.adjustedVariables) = e.adjustedVariables :=
      congrArg Entry.adjustedVariables hrest
    obtain ⟨p, hep, hsame⟩ : ∃ p, e.provenance = some p ∧ p.sameOutcome u.provenance = true := by
      have hstored : (e.applySynthesis u).provenance = some u.provenance := rfl
      rw [hstored] at hp
      cases hep : e.provenance with
      | none => rw [hep] at hp; cases hp
      | some p => rw [hep] at hp; cases hp with | some hsame => exact ⟨p, rfl, hsame⟩
    refine ⟨⟨hl.trans hlinks, hc.trans hcountries, hn.trans hnonNtr, hadjusted.symm, p, hep, hsame⟩,
      ?_⟩
    unfold Entry.NamesVariables
    rw [← hkept, hvariables, hadjusted]
  · rintro ⟨⟨hl, hc, hn, ha, p, hp, hsame⟩, hv⟩
    refine ⟨hl.trans hlinks.symm, hc.trans hcountries.symm, hn.trans hnonNtr.symm, ?_, ?_⟩
    · rw [hp]
      exact .some hsame
    · have hkept : u.adjusted.map (fun _ => u.adjustedVariables) = e.adjustedVariables := by
        rw [hvariables, ← ha]
        exact hv.symm
      unfold Entry.applySynthesis
      rw [hkept, ← ha]

/-! ### A store -/

/-- What a synthesis leaves of an entry. The adjusted formula is that of the entry as it is now, and
all but the variables is held as it was found. The variables are right if the entry was written, or
if they were before. What would be found now is held as well, unless a list of countries that
names none was written. -/
structure Leaves (now : Instant) (h : Headings) (e e' : Entry) : Prop where
  adjusted : e'.adjusted = (Adjustment.ofEntry e' e'.resolveLinks h).adjusted
  held : (ofEntry now h e).update.HeldBy e'
  names : e'.NamesVariables ↔ (ofEntry now h e).changed = true ∨ e.NamesVariables
  again : ∀ now', (ofEntry now' h e').update.HeldBy e' ↔
    ¬((ofEntry now h e).changed = true ∧ NamesNoCountry e)

lemma leaves_settle : Leaves now h e (settle now h e) where
  adjusted := adjusted_settle now h e
  held := heldBy_settle now h e
  names := namesVariables_settle now h e
  again now' := by rw [← changed_eq_false_iff, ← changed_settle now now' h e, Bool.not_eq_true]

end Synthesis

namespace Store

/-- **A synthesis leaves a store up to date**, but for variables. What it finds unchanged would be
changed by no more than the form of lists and the time, were it written, exactly if the variables
that are held are those of the adjusted formula; and they are not looked at. -/
theorem synthesize_up_to_date {s : Store} (hd : (s.entries.map (·.code)).Nodup) (now : Instant)
    (size workers : Nat) :
    (∀ h e, e.Alike (e.applySynthesis (ofEntry now h e).update) ↔
      (ofEntry now h e).changed = false ∧ e.NamesVariables) ∧
    ∃ t r, s.synthesize now size workers = (t, .ok r) ∧
      t.entries.length = s.entries.length ∧
      ∀ (i : Nat) e', t.entries[i]? = some e' → e'.isAdditionalDuty = false →
        ∃ e, s.entries[i]? = some e ∧
          Synthesis.Leaves now (Headings.ofEntries t.entries) e e' := by
  refine ⟨Synthesis.alike_written now, _, _, synthesize_eq s now size workers, ?_⟩
  dsimp only
  rw [synthesized_eq_map hd now, ofEntries_settled, List.length_map]
  refine ⟨rfl, fun i e' he' hordinary => ?_⟩
  rw [List.getElem?_map, Option.map_eq_some_iff] at he'
  obtain ⟨e, he, rfl⟩ := he'
  rw [isAdditionalDuty_settled] at hordinary
  have hsettled : settled now (Headings.ofEntries s.entries) e =
      settle now (Headings.ofEntries s.entries) e := if_neg (by simp [hordinary])
  rw [hsettled]
  exact ⟨e, he, Synthesis.leaves_settle now _ e⟩

theorem synthesize_up_to_date_stale :
    (stale.entries.map (·.code)).Nodup ∧
    ∃ t r e e', stale.synthesize ⟨1, 0⟩ 250 4 = (t, .ok r) ∧ stale.entries[1]? = some e ∧
      t.entries[1]? = some e' ∧ e'.adjusted = some "(weight * 2) + (value * 0.25)" ∧
      e'.NamesVariables ∧ Synthesis.Leaves ⟨1, 0⟩ (Headings.ofEntries t.entries) e e' := by
  have hd : (stale.entries.map (·.code)).Nodup := by decide
  obtain ⟨-, t, r, ht, -, hleaves⟩ := synthesize_up_to_date hd ⟨1, 0⟩ 250 4
  have htentries : t.entries = stale.synthesized ⟨1, 0⟩ :=
    congrArg (·.1.entries) (ht.symm.trans (synthesize_eq _ _ _ _))
  have hwritten : t.entries[1]?.map (fun e => (e.isAdditionalDuty, e.adjusted)) =
      some (false, some "(weight * 2) + (value * 0.25)") := by
    rw [htentries]
    decide +kernel
  obtain ⟨e', he', heq⟩ := Option.map_eq_some_iff.mp hwritten
  obtain ⟨hordinary, hadjusted⟩ := Prod.mk.inj heq
  obtain ⟨e, he, hleft⟩ := hleaves 1 e' he' hordinary
  have hchanged : stale.entries[1]?.any (fun e =>
      (ofEntry ⟨1, 0⟩ (Headings.ofEntries t.entries) e).changed) = true := by
    rw [htentries]
    decide +kernel
  rw [he] at hchanged
  exact ⟨hd, t, r, e, e', ht, he, he', hadjusted, hleft.names.mpr (.inl hchanged), hleft⟩

/-- The adjusted formula is of the value, and the entry holds that it is of the weight. It is not
written, and its variables stay as they are. -/
theorem synthesize_stale_variables :
    let e : Entry :=
      { code := "0101"
        chapter := "01"
        general := { formula := some "0" }
        links := some ["9903.88.03"]
        nonNtr := some ["BY", "CU", "KP", "RU"]
        adjusted := some "(0) + (value * 0.25)"
        adjustedVariables := some [.weight]
        provenance := some ⟨.linked, some "9903.88.03", some 0.25, true, none, true, none⟩ }
    let s := ofEntries [
      { code := "9903.88.03"
        chapter := "99"
        general := { text := some "The duty provided in the applicable subheading + 25%" } }, e]
    (s.entries.map (·.code)).Nodup ∧ e.isAdditionalDuty = false ∧
      s.synthesize ⟨0, 0⟩ 250 4 = (s, .ok ⟨1, 0, 1, 0, 1⟩) ∧
      (ofEntry ⟨0, 0⟩ (Headings.ofEntries s.entries) e).changed = false ∧
      (e.applySynthesis (ofEntry ⟨0, 0⟩ (Headings.ofEntries s.entries) e).update).adjustedVariables =
        some [.value] ∧
      e.adjusted.map Variable.named = some [.value] ∧ e.adjustedVariables = some [.weight] := by
  intro e s
  have hnot : (ofEntry ⟨0, 0⟩ (Headings.ofEntries s.entries) e).changed = false := by
    decide +kernel
  refine ⟨by decide, by decide, ?_, hnot, by decide +kernel, by decide +kernel, rfl⟩
  have hout : outcomes ⟨0, 0⟩ s.entries = [ofEntry ⟨0, 0⟩ (Headings.ofEntries s.entries) e] := by
    have hord : ordinary s.entries = [e] := by
      simp only [ordinary, s, ofEntries]
      rw [List.filter_cons_of_neg (by decide), List.filter_cons_of_pos (by decide), List.filter_nil]
    unfold outcomes
    rw [hord, List.map_singleton]
  rw [synthesize_of_unchanged, hout]
  · exact congrArg (fun r => (s, Except.ok r)) (by decide +kernel)
  · rw [hout]
    simpa using hnot

end Store

end Tariff
