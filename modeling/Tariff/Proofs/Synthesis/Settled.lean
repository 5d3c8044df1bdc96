import Tariff.Proofs.Adjustment.Country
import Tariff.Proofs.Adjustment.Exits
import Tariff.Proofs.Schedule.Codes

/-!
An entry after a synthesis. The fields that a synthesis writes are the ones that it reads, so the
question is whether what it wrote is what it would write again. It is, but for one case: a list of
countries without normal trade relations that names none is written back as an empty list, and an
empty list counts as missing.
-/

namespace Tariff

open Adjustment (Headings Normal NamesNoCountry nonNtrCountries normalizeCountries defaultNonNtr
  stored?)

/-! ### What an adjustment holds -/

namespace Adjustment

/-- An adjustment depends on the base formula and the countries of the entry alone. -/
lemma ofEntry_congr {e e' : Entry} (hf : e'.general.formula = e.general.formula)
    (codes : List String) (h : Headings) :
    Adjustment.ofEntry e' codes h =
      { Adjustment.ofEntry e codes h with nonNtr := nonNtrCountries e' } := by
  unfold Adjustment.ofEntry
  rw [hf]
  dsimp only
  split_ifs with hc
  · rfl
  · split
    · rfl
    · split
      · rfl
      · split
        · rfl
        · split <;> rfl

lemma nonNtr_ofEntry (e : Entry) (codes : List String) (h : Headings) :
    (Adjustment.ofEntry e codes h).nonNtr = nonNtrCountries e := by
  rw [ofEntry_congr (rfl : e.general.formula = e.general.formula)]

lemma normalizeCountries_countries (e : Entry) (codes : List String) (h : Headings) :
    (Adjustment.ofEntry e codes h).countries.map normalizeCountries =
      (Adjustment.ofEntry e codes h).countries := by
  have hexit := exit_ofEntry e codes h
  generalize Adjustment.ofEntry e codes h = a at hexit ⊢
  cases hexit with
  | noLinks | notSelected | baseRefused | adjustedRefused => rfl
  | @noBase _ heading | @adjusted _ heading =>
    change (applicableCountries heading).map normalizeCountries = applicableCountries heading
    cases ha : applicableCountries heading with
    | none => rfl
    | some list => exact congrArg some (normal_of_applicableCountries ha).normalizeCountries_eq

lemma beq_rate (e : Entry) (codes : List String) (h : Headings) :
    ((Adjustment.ofEntry e codes h).reference.map (·.rate) ==
      (Adjustment.ofEntry e codes h).reference.map (·.rate)) = true := by
  have hexit := exit_ofEntry e codes h
  generalize Adjustment.ofEntry e codes h = a at hexit ⊢
  cases hexit with
  | noLinks | notSelected | baseRefused | adjustedRefused => rfl
  | noBase _ hs | adjusted _ hs => exact Decimal.beq_self_of_isFinite (isFinite_select? hs)

end Adjustment

namespace Synthesis

variable (now now' : Instant) (h : Headings) (e : Entry)

/-- The entry after its synthesis: written if that differs from what the entry holds. -/
def settle : Entry :=
  if (ofEntry now h e).changed then e.applySynthesis (ofEntry now h e).update else e

/-- The entry with all that its synthesis found. -/
def written : Entry := e.applySynthesis (ofEntry now h e).update

lemma resolveLinks_written : (written now h e).resolveLinks = e.resolveLinks :=
  e.resolveLinks_stored

lemma nonNtr_written : (written now h e).nonNtr = some (nonNtrCountries e) :=
  congrArg some (Adjustment.nonNtr_ofEntry e e.resolveLinks h)

/-- Of the fields that are written, only the list of countries without normal trade relations and
the mark that it is the default one can differ from what would be written next. -/
lemma changed_written : (ofEntry now' h (written now h e)).changed =
    (normalizeCountries (nonNtrCountries e) != nonNtrCountries (written now h e)
      || nonNtrDefaulted e != nonNtrDefaulted (written now h e)) := by
  have hc : (ofEntry now' h (written now h e)).changed = differs (written now h e)
      (updateOf now' (written now h e) (written now h e).resolveLinks
        (Adjustment.ofEntry (written now h e) (written now h e).resolveLinks h)) := rfl
  have hbase : (written now h e).general.formula = e.general.formula := rfl
  rw [hc, resolveLinks_written, Adjustment.ofEntry_congr hbase]
  have hnormal := Adjustment.normalizeCountries_countries e e.resolveLinks h
  have hrate := Adjustment.beq_rate e e.resolveLinks h
  set a := Adjustment.ofEntry e e.resolveLinks h
  have hlinks : (written now h e).links.getD [] = e.resolveLinks := rfl
  have hcountries : (written now h e).countries = a.countries := rfl
  have hadjusted : (written now h e).adjusted = a.adjusted := rfl
  have hprov : (written now h e).provenance = some (updateOf now e e.resolveLinks a).provenance :=
    rfl
  unfold differs
  rw [hlinks, hcountries, hadjusted, hprov, nonNtr_written]
  simp [updateOf, Provenance.sameOutcome, normalizeLinks_resolveLinks, hrate, hnormal, bne]

lemma stored?_nonNtr_written (hne : nonNtrCountries e ≠ []) :
    stored? (written now h e).nonNtr = some (nonNtrCountries e) :=
  Adjustment.stored?_eq_some_iff.mpr ⟨nonNtr_written now h e, hne⟩

lemma nonNtrCountries_written (hne : nonNtrCountries e ≠ []) :
    nonNtrCountries (written now h e) = nonNtrCountries e := by
  unfold nonNtrCountries at *
  rw [stored?_nonNtr_written now h e hne]
  exact (Adjustment.normal_nonNtrCountries e).normalizeCountries_eq

lemma nonNtrCountries_of_defaulted (hd : nonNtrDefaulted e = true) :
    nonNtrCountries e = defaultNonNtr := by
  unfold nonNtrDefaulted at hd
  unfold nonNtrCountries
  split at hd
  next hs => rw [hs]; rfl
  next list hs =>
    rw [Bool.and_eq_true] at hd
    rw [hs]
    exact eq_of_beq hd.2

lemma nonNtrDefaulted_written (hne : nonNtrCountries e ≠ []) :
    nonNtrDefaulted (written now h e) = nonNtrDefaulted e := by
  have hprov : (written now h e).provenance.any (·.nonNtrDefaulted) = nonNtrDefaulted e := rfl
  have hw : nonNtrDefaulted (written now h e) =
      (nonNtrDefaulted e && normalizeCountries (nonNtrCountries e) == defaultNonNtr) := by
    rw [← hprov]
    conv_lhs => unfold nonNtrDefaulted
    rw [stored?_nonNtr_written now h e hne]
  rw [hw, (Adjustment.normal_nonNtrCountries e).normalizeCountries_eq]
  cases hd : nonNtrDefaulted e with
  | false => rfl
  | true => rw [nonNtrCountries_of_defaulted e hd]; rfl

/-- **An entry settles**: what its synthesis writes is what it would write again, unless the entry
has a list of countries that names none. -/
theorem changed_settle : (ofEntry now' h (settle now h e)).changed = true ↔
    (ofEntry now h e).changed = true ∧ NamesNoCountry e := by
  unfold settle
  split_ifs with hc
  · rw [← Adjustment.nonNtrCountries_eq_nil_iff]
    change (ofEntry now' h (written now h e)).changed = true ↔ _
    rw [changed_written]
    by_cases hn : nonNtrCountries e = []
    · have hs : stored? (written now h e).nonNtr = none := by
        rw [nonNtr_written, hn]; rfl
      have hd : nonNtrCountries (written now h e) = defaultNonNtr := by
        unfold nonNtrCountries; rw [hs]; rfl
      rw [hn, hd]
      simp [hc, normalizeCountries, sortedSet, defaultNonNtr]
    · rw [nonNtrCountries_written now h e hn, nonNtrDefaulted_written now h e hn,
        (Adjustment.normal_nonNtrCountries e).normalizeCountries_eq]
      simp [hn]
  · exact iff_of_false hc fun h => hc h.1

end Synthesis

end Tariff
