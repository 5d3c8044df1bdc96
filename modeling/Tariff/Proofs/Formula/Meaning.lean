import Tariff.Proofs.Formula.Chain
import Tariff.Proofs.Formula.Evaluation

/-!
What a formula means. A formula that the grammar derives has one tree, and its evaluation finds the
value of that tree unless a divisor in it is zero; any other formula has no value.
-/

namespace Tariff.Formula

variable {b : Binding}

/-! ### Divisors -/

mutual

/-- The factors of a tree that something is divided by. -/
def Expr.divisors : Expr → List Factor
  | .term t => t.divisors
  | .step e _ _ t => e.divisors ++ t.divisors

def Term.divisors : Term → List Factor
  | .factor f => f.divisors
  | .step t o _ f => t.divisors ++ ((if o = .div then [f] else []) ++ f.divisors)

def Factor.divisors : Factor → List Factor
  | .number _ => []
  | .named _ => []
  | .enclosed e => e.divisors
  | .minus f => f.divisors

end

def Factor.IsZero (b : Binding) (f : Factor) : Prop := ∃ x, f.value b = .ok x ∧ (x == 0) = true

lemma apply_eq_error {o : Op} {x y : Float} :
    o.apply x y = .error .divisionByZero ↔ o = .div ∧ (y == 0) = true := by
  cases o with
  | add | sub | mul => exact iff_of_false nofun nofun
  | div => simp [Op.apply]

/-- An operation divides by zero if one of its operands does or if it is a division and its right
operand is zero. -/
lemma bind_apply_eq_error {u v : Except EvalError Float} {o : Op}
    (hu : (∃ x, u = .ok x) ∨ u = .error .divisionByZero)
    (hv : (∃ y, v = .ok y) ∨ v = .error .divisionByZero) :
    (do o.apply (← u) (← v)) = .error .divisionByZero ↔ u = .error .divisionByZero ∨
      v = .error .divisionByZero ∨ o = .div ∧ ∃ y, v = .ok y ∧ (y == 0) = true := by
  rcases hu with ⟨x, rfl⟩ | rfl
  · rcases hv with ⟨y, rfl⟩ | rfl
    · have happly : (do o.apply (← Except.ok x) (← Except.ok y)) = o.apply x y := rfl
      rw [happly, apply_eq_error]
      simp
    · exact iff_of_true rfl (.inr (.inl rfl))
  · exact iff_of_true rfl (.inl rfl)

mutual

/-- A tree has no value exactly if a divisor in it is zero. -/
theorem Expr.value_eq_error_iff (b : Binding) (e : Expr) :
    e.value b = .error .divisionByZero ↔ ∃ f ∈ e.divisors, f.IsZero b := by
  cases e with
  | term t => exact t.value_eq_error_iff b
  | step e o ho t =>
    have hdiv : o ≠ .div := by
      rintro rfl
      cases ho
    rw [Expr.value, bind_apply_eq_error (e.value_cases b) (t.value_cases b),
      e.value_eq_error_iff b, t.value_eq_error_iff b, Expr.divisors]
    simp [hdiv, or_and_right, exists_or]

theorem Term.value_eq_error_iff (b : Binding) (t : Term) :
    t.value b = .error .divisionByZero ↔ ∃ f ∈ t.divisors, f.IsZero b := by
  cases t with
  | factor f => exact f.value_eq_error_iff b
  | step t o ho f =>
    rw [Term.value, bind_apply_eq_error (t.value_cases b) (f.value_cases b),
      t.value_eq_error_iff b, f.value_eq_error_iff b, Term.divisors]
    by_cases hdiv : o = .div
    · simp [hdiv, or_and_right, exists_or, Factor.IsZero, or_comm, or_assoc]
    · simp [hdiv, or_and_right, exists_or]

theorem Factor.value_eq_error_iff (b : Binding) (f : Factor) :
    f.value b = .error .divisionByZero ↔ ∃ g ∈ f.divisors, g.IsZero b := by
  cases f with
  | number | named => exact iff_of_false nofun (by simp [Factor.divisors])
  | enclosed e => exact e.value_eq_error_iff b
  | minus f =>
    rw [Factor.divisors, ← f.value_eq_error_iff b, Factor.value]
    cases f.value b with
    | error => exact Iff.rfl
    | ok => exact iff_of_false nofun nofun

end

/-! ### The meaning of a formula -/

/-- **Evaluation follows the grammar.** A formula whose tokens the grammar derives has one
derivation; it evaluates to the value of that derivation, or it fails with a division by zero,
exactly if a divisor in it is zero. A formula without tokens or without a derivation has no
value. -/
theorem evaluate_follows_grammar (formula : String) (b : Binding) :
    (∀ e, Spells formula e →
      (∀ e', Spells formula e' → e' = e) ∧
      evaluate formula b = e.value b ∧
      ((∃ x, evaluate formula b = .ok x) ∨ evaluate formula b = .error .divisionByZero) ∧
      (evaluate formula b = .error .divisionByZero ↔ ∃ f ∈ e.divisors, f.IsZero b)) ∧
    ((¬∃ e, Spells formula e) → ∀ x, evaluate formula b ≠ .ok x) := by
  refine ⟨fun e he => ?_, fun hn x hx => hn (exists_spells_of_evaluate hx)⟩
  have hvalue := evaluate_of_spells he b
  refine ⟨fun e' he' => he'.unique he, hvalue, ?_, ?_⟩
  · rw [hvalue]
    exact e.value_cases b
  · rw [hvalue]
    exact e.value_eq_error_iff b

theorem evaluate_follows_grammar_quotients :
    ∃ e, Spells "value / weight*2 - -1 / (quantity - 3)" e ∧
      e.divisors.map Factor.tokens = [[.name "weight"],
        [.opening, .name "quantity", .op .sub, .number 3, .closing]] ∧
      evaluate "value / weight*2 - -1 / (quantity - 3)" ⟨6, 2, 4⟩ =
        .ok (6 / 2 * 2 - -1 / (4 - 3)) ∧
      (evaluate "value / weight*2 - -1 / (quantity - 3)" ⟨6, 2, 3⟩ = .error .divisionByZero ↔
        ∃ f ∈ e.divisors, f.IsZero ⟨6, 2, 3⟩) := by
  let difference : Expr := .step (.term (.factor (.named .quantity))) .sub rfl (.factor (.number 3))
  let quotients : Expr := .step
    (.term (.step (.step (.factor (.named .value)) .div rfl (.named .weight)) .mul rfl (.number 2)))
    .sub rfl (.step (.factor (.minus (.number 1))) .div rfl (.enclosed difference))
  have h : Spells "value / weight*2 - -1 / (quantity - 3)" quotients := ⟨_, rfl, rfl⟩
  have hgrammar (b : Binding) := (evaluate_follows_grammar _ b).1 quotients h
  exact ⟨quotients, h, rfl, (hgrammar _).2.1, (hgrammar _).2.2.2⟩

end Tariff.Formula
