import Tariff.Proofs.Formula.Evaluable
import Tariff.Proofs.Generation.Answers

/-!
What it says of a formula that it is accepted from an answer. The gate and the names are checked,
but not the grammar: an accepted formula that spells an expression can be evaluated but for a
division by zero, and one that spells none is accepted all the same.
-/

namespace Tariff.Generation

open Tariff.Formula

/-- **Accepted formulas, evaluated.** No name in them is unknown, and the variables recorded with
them are among their names. Those that spell an expression have a value unless a divisor is zero,
and their variables are exactly the names among their tokens; the others have no value at all. -/
theorem accepted_evaluates {answer : String} {c : Compiled} (h : Accepts answer c) :
    (∀ b s, evaluate c.formula b ≠ .error (.unknownName s)) ∧
    (∀ placed, tokens c.formula = .ok placed → ∀ v ∈ c.vars, .name v.name ∈ placed.map (·.2)) ∧
    (∀ e, Spells c.formula e →
      (∀ b, (∃ x, evaluate c.formula b = .ok x) ∨
        evaluate c.formula b = .error .divisionByZero) ∧
      ∀ v, v ∈ c.vars ↔ .name v.name ∈ e.tokens) ∧
    ((¬∃ e, Spells c.formula e) → ∀ b x, evaluate c.formula b ≠ .ok x) := by
  obtain ⟨j, -, hread⟩ := h.exists_fields
  obtain ⟨haccepted, hknown, hvars, -, -⟩ := vetted_of_readFields hread
  have hnames := knownNames_of_unknownName? haccepted hknown
  refine ⟨fun b s => hnames.evaluate_ne s, fun placed hp v hv => ?_, fun e he => ⟨fun b => ?_, ?_⟩,
    fun hn b x hx => hn (exists_spells_of_evaluate hx)⟩
  · rw [hvars] at hv
    exact name_mem_of_mem_named hp hv
  · rw [evaluate_of_spells he]
    exact e.value_cases b
  · rw [hvars]
    exact mem_named_iff haccepted he

def sureAnswer (formula vars : String) : String :=
  "\x7b\"formula\": \"" ++ formula ++ "\", \"variables\": [" ++ vars ++ "], \"confidence\": 1\x7d"

def quotient : Expr :=
  .term (.step (.factor (.named .value)) .div rfl
    (.enclosed (.step (.term (.factor (.named .weight))) .sub rfl (.factor (.number 1)))))

theorem accepted_evaluates_quotient :
    ∃ c, Accepts (sureAnswer "value / (weight - 1)" "\"weight\", \"value\"") c ∧
      Spells c.formula quotient ∧
      (∀ b, (∃ x, evaluate c.formula b = .ok x) ∨
        evaluate c.formula b = .error .divisionByZero) ∧
      ∀ v, v ∈ c.vars ↔ .name v.name ∈ quotient.tokens := by
  have h : (readSingle (sureAnswer "value / (weight - 1)" "\"weight\", \"value\"")).toOption.map
      (·.formula) = some "value / (weight - 1)" := by decide +kernel
  obtain ⟨c, hc, hf⟩ := Option.map_eq_some_iff.mp h
  have haccepts := Accepts.single (toOption_eq_some hc)
  have hspells : Spells c.formula quotient := by
    rw [hf]
    exact ⟨_, rfl, rfl⟩
  exact ⟨c, haccepts, hspells, (accepted_evaluates haccepts).2.2.1 quotient hspells⟩

/-- Operands side by side are accepted. Two names do not evaluate, and a name behind a number is
recorded as no variable, as it is no whole word. -/
theorem accepts_side_by_side :
    (∃ c, Accepts (sureAnswer "value value" "\"value\"") c ∧
      ∀ b, evaluate c.formula b = .error (.trailingInput 6)) ∧
    ∃ c, Accepts (sureAnswer "2value" "") c ∧ c.vars = [] ∧
      (∀ b, evaluate c.formula b = .error (.trailingInput 1)) ∧
      ∃ placed, tokens c.formula = .ok placed ∧ .name "value" ∈ placed.map (·.2) := by
  constructor
  · have h : (readSingle (sureAnswer "value value" "\"value\"")).toOption.map (·.formula) =
        some "value value" := by decide +kernel
    obtain ⟨c, hc, hf⟩ := Option.map_eq_some_iff.mp h
    refine ⟨c, .single (toOption_eq_some hc), fun b => ?_⟩
    rw [hf]
    rfl
  · have h : (readSingle (sureAnswer "2value" "")).toOption.map (fun c => (c.formula, c.vars)) =
        some ("2value", []) := by decide +kernel
    obtain ⟨c, hc, hf⟩ := Option.map_eq_some_iff.mp h
    obtain ⟨hformula, hvars⟩ := Prod.mk.inj hf
    refine ⟨c, .single (toOption_eq_some hc), hvars, ?_⟩
    rw [hformula]
    exact ⟨fun b => rfl, _, rfl, List.mem_cons_of_mem _ List.mem_cons_self⟩

end Tariff.Generation
