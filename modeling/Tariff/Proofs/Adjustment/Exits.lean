import Tariff.Adjustment.Compose
import Tariff.Proofs.Rate.Finite

/-!
The ways an adjustment comes out, each with what leads to it. What is proved of adjustments goes
through these cases; only here is the selection taken apart.
-/

namespace Tariff.Adjustment

open Tariff.Formula

/-! ### Selection -/

lemma isFinite_adjustmentRate? {text : String} {r : Float} (h : adjustmentRate? text = some r) :
    r.isFinite = true := by
  unfold adjustmentRate? at h
  dsimp only at h
  split at h
  · exact Rate.isFinite_percentage? h
  · obtain ⟨shape, hs, hr⟩ := Option.bind_eq_some_iff.mp h
    exact Rate.isFinite_of_mem_rates hs r (Rate.Shape.mem_rates_of_valueOnly? hr)

lemma isFinite_select? {codes : List String} {h : Headings} {ref : Reference} {heading : Entry}
    (hs : select? codes h = some (ref, heading)) : ref.rate.isFinite = true := by
  unfold select? at hs
  dsimp only at hs
  split at hs
  next c hc =>
    cases hs
    cases hr : adjustmentRate? c.text with
    | none => exact Decimal.isFinite_zero
    | some r => exact isFinite_adjustmentRate? hr
  next =>
    obtain ⟨c, -, hc⟩ := List.exists_of_findSome?_eq_some hs
    obtain ⟨r, hr, hc⟩ := Option.bind_eq_some_iff.mp hc
    cases hc
    exact isFinite_adjustmentRate? (Option.filter_eq_some_iff.mp hr).1

/-- **Adding the rate of a heading never stops the program.** -/
theorem write_select? {codes : List String} {h : Headings} {ref : Reference} {heading : Entry}
    (hs : select? codes h = some (ref, heading)) : write ref.rate = .ok (literal ref.rate) :=
  Rate.write_of_isFinite (isFinite_select? hs)

/-! ### Exits -/

section

variable (e : Entry) (codes : List String) (h : Headings)

def without (status : Status) (reason : Reason) : Adjustment :=
  ⟨status, none, none, nonNtrCountries e, e.general.formula, none, some reason⟩

def linked (ref : Reference) (heading : Entry) (adjusted : Option String)
    (reason : Option Reason) : Adjustment :=
  ⟨.linked, some ref, applicableCountries heading, nonNtrCountries e, e.general.formula, adjusted,
    reason⟩

/-- How an adjustment comes out. -/
inductive Exit : Adjustment → Prop where
  | noLinks (hcodes : codes = []) : Exit (without e .noLinks .noReferences)
  | notSelected (hcodes : codes ≠ []) (hs : select? codes h = none) :
      Exit (without e .unresolved (unresolvedReason codes h))
  | noBase {ref : Reference} {heading : Entry} (hcodes : codes ≠ [])
      (hs : select? codes h = some (ref, heading)) (hbase : e.general.formula = none) :
      Exit (linked e ref heading none (some .noBase))
  | baseRefused {ref : Reference} {heading : Entry} {base : String} {r : Refusal}
      (hcodes : codes ≠ []) (hs : select? codes h = some (ref, heading))
      (hbase : e.general.formula = some base) (hr : refusal? base = some r) :
      Exit (without e .unresolved (.baseRefused r))
  | adjustedRefused {ref : Reference} {heading : Entry} {base : String} {r : Refusal}
      (hcodes : codes ≠ []) (hs : select? codes h = some (ref, heading))
      (hbase : e.general.formula = some base) (haccepted : Accepted base)
      (hr : refusal? (addRate base ref.rate) = some r) :
      Exit (without e .unresolved (.adjustedRefused r))
  | adjusted {ref : Reference} {heading : Entry} {base : String} (hcodes : codes ≠ [])
      (hs : select? codes h = some (ref, heading)) (hbase : e.general.formula = some base)
      (haccepted : Accepted base) (hadjusted : Accepted (addRate base ref.rate)) :
      Exit (linked e ref heading (some (addRate base ref.rate)) none)

lemma exit_ofEntry : Exit e codes h (Adjustment.ofEntry e codes h) := by
  unfold Adjustment.ofEntry
  dsimp only
  split_ifs with hc
  · exact .noLinks (List.isEmpty_iff.mp hc)
  have hcodes : codes ≠ [] := fun hn => hc (List.isEmpty_iff.mpr hn)
  split
  next hs => exact .notSelected hcodes hs
  next ref heading hs =>
    split
    next hbase => exact .noBase hcodes hs hbase
    next base hbase =>
      split
      next r hr => exact .baseRefused hcodes hs hbase hr
      next haccepted =>
        split
        next r hr => exact .adjustedRefused hcodes hs hbase haccepted hr
        next hadjusted => exact .adjusted hcodes hs hbase haccepted hadjusted

end

end Tariff.Adjustment
