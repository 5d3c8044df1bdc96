import Tariff.Adjustment.Compose
import Tariff.Proofs.Formula.Enclosed
import Tariff.Proofs.Formula.Sum

/-!
The formula of an adjustment: a base formula in parentheses and so much of the value on top. The
gate lets it pass with any base that it lets pass, it names the variables of the base and the value,
and it evaluates to the value of the base and the duty on top, or to no value if the base has none.
-/

namespace Tariff.Adjustment

open Tariff.Formula Tariff.Text

/-! ### Text -/

def duty (rate : Float) : String := sumText [(.value, rate)]

def addition (rate : Float) : List Char :=
  ' ' :: '+' :: ' ' :: '(' :: ((duty rate).toList ++ [')'])

lemma toList_duty (rate : Float) : (duty rate).toList =
    Variable.value.name.toList ++ ' ' :: '*' :: ' ' :: (literal rate).toList := by
  rw [duty, sumText_singleton, toList_productText]

lemma toList_enclosed (base : String) (rest : List Char) :
    (enclosed base rest).toList = '(' :: (base.toList ++ ')' :: rest) := String.toList_ofList

lemma addRate_of_le (base : String) {rate : Float} (h : rate ≤ 0) : addRate base rate = base :=
  if_pos h

lemma addRate_of_pos (base : String) {rate : Float} (h : 0 < rate) :
    addRate base rate = enclosed base (addition rate) := by
  unfold addRate
  rw [if_neg fun hle => Decimal.not_lt_of_le hle h, ← String.toList_inj, toList_enclosed, addition,
    toList_duty]
  simp [Variable.name, String.toList_append]

lemma runsOf_added {p : Char → Bool}
    (hp : p '(' = false ∧ p ')' = false ∧ p '+' = false ∧ p ' ' = false) (base : String)
    (rate : Float) : runsOf p (enclosed base (addition rate)).toList =
      runsOf p base.toList ++ runsOf p (duty rate).toList := by
  obtain ⟨hopening, hclosing, hplus, hblank⟩ := hp
  rw [toList_enclosed, addition, runsOf_cons_of_neg hopening, runsOf_append_cons hclosing,
    runsOf_cons_of_neg hblank, runsOf_cons_of_neg hplus, runsOf_cons_of_neg hblank,
    runsOf_cons_of_neg hopening, runsOf_append_cons hclosing]
  exact congrArg _ (List.append_nil _)

/-! ### The gate -/

section

variable {base : String} {rate : Float}

lemma allFinite_duty (h : rate.isFinite = true) : AllFinite [(Variable.value, rate)] := by
  simpa [AllFinite] using h

lemma accepted_added (h : Accepted base) (hf : rate.isFinite = true) :
    Accepted (enclosed base (addition rate)) := by
  obtain ⟨-, hallowed, hnames, hbalanced⟩ := accepted_iff.mp h
  have hduty : ∀ c ∈ (duty rate).toList, isAllowed c = true ∧ c ≠ '(' ∧ c ≠ ')' :=
    fun c hc => isAllowed_of_mem_sumText (allFinite_duty hf) hc
  refine accepted_iff.mpr ⟨?_, ?_, ?_, ?_⟩
  · rw [toList_enclosed, List.all_cons]
    rfl
  · have hmarks : isAllowed '(' = true ∧ isAllowed ')' = true ∧ isAllowed '+' = true ∧
        isAllowed ' ' = true := by decide
    obtain ⟨hopening, hclosing, hplus, hblank⟩ := hmarks
    rw [toList_enclosed, addition]
    simp only [List.forall_mem_cons, List.forall_mem_append]
    exact ⟨hopening, hallowed, hclosing, hblank, hplus, hblank, hopening,
      fun c hc => (hduty c hc).1, hclosing, nofun⟩
  · unfold names
    rw [runsOf_added (by decide), List.map_append]
    intro w hw
    rcases List.mem_append.mp hw with hw | hw
    · exact hnames w hw
    · have hnamed := names_sumText (allFinite_duty hf)
      unfold names at hnamed
      rw [duty, hnamed] at hw
      obtain rfl : w = "value" := List.mem_singleton.mp hw
      decide
  · have hclosed := balanced_append hbalanced 1 (')' :: addition rate)
    rw [Nat.zero_add] at hclosed
    rw [toList_enclosed]
    refine hclosed.trans ?_
    have hbehind := balanced_append_of_not (fun c hc => (hduty c hc).2) 1 [')']
    unfold addition
    generalize (duty rate).toList = cs at hbehind ⊢
    exact hbehind

lemma named_added (hf : rate.isFinite = true) : Variable.named (enclosed base (addition rate)) =
    Variable.canonical (Variable.named base ++ [.value]) := by
  refine canonical_congr fun v => ?_
  have hduty := named_sumText (allFinite_duty hf)
  rw [words, runsOf_added (by decide), List.filterMap_append, List.mem_append, List.mem_append,
    mem_named, words]
  have hv := @mem_named (duty rate) v
  rw [duty, hduty, words] at hv
  rw [duty, ← hv, mem_canonical]
  rfl

/-- The gate lets the formula of an adjustment pass if it lets the base pass. -/
lemma accepted_addRate (h : Accepted base) (hf : rate.isFinite = true) :
    Accepted (addRate base rate) := by
  by_cases hle : rate ≤ 0
  · rwa [addRate_of_le base hle]
  · rw [addRate_of_pos base (Decimal.pos_of_not_le hf hle)]
    exact accepted_added h hf

lemma named_addRate (base : String) (hf : rate.isFinite = true) :
    Variable.named (addRate base rate) =
      if 0 < rate then Variable.canonical (Variable.named base ++ [.value])
      else Variable.named base := by
  split_ifs with hpos
  · rw [addRate_of_pos base hpos, named_added hf]
  · rw [addRate_of_le base (by_contra fun hle => hpos (Decimal.pos_of_not_le hf hle))]

end

/-! ### Evaluation -/

lemma lexes_addition {rate c : Float} (hd : Decimal.IsDecimal (literal rate).toList)
    (hc : Decimal.read? (literal rate).toList = some c) : Lexes (addition rate)
      [.op .add, .opening, .name Variable.value.name, .op .mul, .number c, .closing] := by
  have hblank : isBlank ' ' = true := by decide
  have hduty := lexes_productText .value (lexes_decimal hd hc rfl Lexes.nil.closing)
  rw [← sumText_singleton (.value, rate)] at hduty
  exact ((hduty.opening.blank hblank).op .add).blank hblank

lemma resume_addition {placed : List Placed} {c : Float} (h : placed.map (·.2) =
      [.op .add, .opening, .name Variable.value.name, .op .mul, .number c, .closing])
    (b : Binding) (x : Float) : resume b {} [] placed x = .ok (x + b.value * c) := by
  simp only [List.map_eq_cons_iff, List.map_eq_nil_iff] at h
  obtain ⟨⟨i₁, -⟩, _, rfl, rfl, ⟨i₂, -⟩, _, rfl, rfl, ⟨i₃, -⟩, _, rfl, rfl, ⟨i₄, -⟩, _, rfl, rfl,
    ⟨i₅, -⟩, _, rfl, rfl, ⟨i₆, -⟩, _, rfl, rfl, rfl⟩ := h
  rfl

/-- **Adjustments compose without capture.** With the duty of a heading on top, a formula that the
gate lets pass has a value exactly where it has one alone, and it is that value and the duty, at the
rate that is written. It divides by zero exactly where it does so alone. -/
theorem evaluate_addRate {base : String} (hbase : Accepted base) {ref : Reference}
    (hf : ref.rate.isFinite = true) (hpos : 0 < ref.rate) :
    ∃ c, Decimal.read? (literal ref.rate).toList = some c ∧ ∀ b : Binding,
      (∀ x, evaluate (addRate base ref.rate) b = .ok x ↔
        ∃ y, evaluate base b = .ok y ∧ x = y + b.value * c) ∧
      (evaluate (addRate base ref.rate) b = .error .divisionByZero ↔
        evaluate base b = .error .divisionByZero) := by
  have hd := isDecimal_literal hf hpos
  obtain ⟨c, hc⟩ := Decimal.exists_read? hd
  obtain ⟨placed, hplaced, hsame⟩ :=
    sameResult_enclosed (accepted_iff.mp hbase).2.2.2 (lexes_addition hd hc)
  refine ⟨c, hc, fun b => ?_⟩
  have h := hsame b
  rw [addRate_of_pos base hpos]
  constructor
  · intro x
    rw [h.ok_iff, bind_eq_ok]
    refine exists_congr fun y => and_congr_right fun _ => ?_
    rw [resume_addition hplaced, Except.ok.injEq, eq_comm]
  · rw [h.zeroDivision_iff, bind_eq_error]
    refine or_iff_left ?_
    rintro ⟨y, -, hy⟩
    rw [resume_addition hplaced] at hy
    cases hy

theorem evaluate_addRate_quarter :
    addRate "value / (weight - 1)" (Decimal.ofScaled 25 (-2)) =
        "(value / (weight - 1)) + (value * 0.25)" ∧
      evaluate (addRate "value / (weight - 1)" (Decimal.ofScaled 25 (-2))) ⟨8, 3, 0⟩ =
        .ok (8 / (3 - 1) + 8 * Decimal.ofScaled 25 (-2)) ∧
      evaluate (addRate "value / (weight - 1)" (Decimal.ofScaled 25 (-2))) ⟨8, 1, 0⟩ =
        .error .divisionByZero := by
  have hbase : Accepted "value / (weight - 1)" := by decide +kernel
  let ref : Reference := ⟨"9903.01.01", "+ 25%", Decimal.ofScaled 25 (-2), false⟩
  have hf : ref.rate.isFinite = true := by decide +kernel
  obtain ⟨c, hc, h⟩ := evaluate_addRate hbase hf (by decide +kernel)
  have hread : Decimal.read? (literal (Decimal.ofScaled 25 (-2))).toList =
    some (Decimal.ofScaled 25 (-2)) := rfl
  obtain rfl : Decimal.ofScaled 25 (-2) = c := Option.some.inj (hread.symm.trans hc)
  exact ⟨by decide +kernel, ((h _).1 _).mpr ⟨8 / (3 - 1), rfl, rfl⟩, (h _).2.mpr rfl⟩

end Tariff.Adjustment
