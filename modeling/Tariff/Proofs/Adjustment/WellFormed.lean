import Tariff.Proofs.Adjustment.Added
import Tariff.Proofs.Adjustment.Exits

/-!
Every adjustment is well formed: its parts go together, and the formula that it gives passes the
gate. That the gate could refuse the formula is a case of its own, which does not come up.
-/

namespace Tariff.Adjustment

open Tariff.Formula

/-- What goes together in the adjustment of an entry that refers to the headings of `codes`. -/
structure WellFormed (e : Entry) (codes : List String) (a : Adjustment) : Prop where
  noLinks : a.status = .noLinks ↔ codes = []
  reference : a.reference.isSome ↔ a.status = .linked
  adjusted : a.adjusted.isSome ↔ a.status = .linked ∧ e.general.formula.isSome
  /-- the formula is the base and the rate of the heading, passes the gate as the base does, and
  has the value among its variables if the rate counts -/
  formula : ∀ f, a.adjusted = some f → ∃ base ref,
    e.general.formula = some base ∧ a.reference = some ref ∧ f = addRate base ref.rate ∧
    (check base).refusal = none ∧ (check f).refusal = none ∧
    (check f).vars =
      if 0 < ref.rate then Variable.canonical ((check base).vars ++ [.value])
      else (check base).vars
  countries : a.countries.isSome → a.status = .linked
  reason : a.reason.isSome ↔ a.adjusted = none
  neverRefused : ∀ r, a.reason ≠ some (.adjustedRefused r)

variable {e : Entry} {codes : List String}

lemma wellFormed_without {status : Status} {reason : Reason} (hstatus : status ≠ .linked)
    (hcodes : status = .noLinks ↔ codes = []) (hreason : ∀ r, reason ≠ .adjustedRefused r) :
    WellFormed e codes (without e status reason) where
  noLinks := hcodes
  reference := iff_of_false nofun hstatus
  adjusted := iff_of_false nofun fun h => hstatus h.1
  formula := nofun
  countries := nofun
  reason := iff_of_true rfl rfl
  neverRefused r h := hreason r (Option.some.inj h)

lemma unresolvedReason_ne (codes : List String) (h : Headings) (r : Refusal) :
    unresolvedReason codes h ≠ .adjustedRefused r := by
  unfold unresolvedReason
  split_ifs <;> nofun

/-- **Adjustments are well formed.** -/
theorem ofEntry_wellFormed (e : Entry) (codes : List String) (h : Headings) :
    WellFormed e codes (Adjustment.ofEntry e codes h) := by
  have hexit := exit_ofEntry e codes h
  generalize Adjustment.ofEntry e codes h = a at hexit ⊢
  cases hexit with
  | noLinks hcodes => exact wellFormed_without nofun (iff_of_true rfl hcodes) nofun
  | notSelected hcodes =>
    exact wellFormed_without nofun (iff_of_false nofun hcodes) (unresolvedReason_ne codes h)
  | baseRefused hcodes => exact wellFormed_without nofun (iff_of_false nofun hcodes) nofun
  | noBase hcodes _ hbase =>
    exact {
      noLinks := iff_of_false nofun hcodes
      reference := iff_of_true rfl rfl
      adjusted := iff_of_false nofun fun h => by rw [hbase] at h; exact nomatch h.2
      formula := nofun
      countries := fun _ => rfl
      reason := iff_of_true rfl rfl
      neverRefused := nofun }
  | adjustedRefused hcodes hs _ haccepted hr =>
    have hadjusted := accepted_addRate haccepted (isFinite_select? hs)
    exact nomatch hadjusted.symm.trans hr
  | @adjusted ref _ base hcodes hs hbase haccepted hadjusted =>
    refine {
      noLinks := iff_of_false nofun hcodes
      reference := iff_of_true rfl rfl
      adjusted := iff_of_true rfl ⟨rfl, hbase ▸ rfl⟩
      formula := ?_
      countries := fun _ => rfl
      reason := iff_of_false nofun nofun
      neverRefused := nofun }
    rintro _ ⟨⟩
    refine ⟨base, ref, hbase, rfl, rfl, ?_⟩
    rw [check_of_accepted haccepted, check_of_accepted hadjusted]
    exact ⟨rfl, rfl, named_addRate base (isFinite_select? hs)⟩

end Tariff.Adjustment
