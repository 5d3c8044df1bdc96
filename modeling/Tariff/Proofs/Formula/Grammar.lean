import Mathlib.Tactic.Common
import Tariff.Formula.Eval

/-!
The grammar of formulas. An expression adds and subtracts terms, a term multiplies and divides
factors, both from left to right; a factor is a number, a variable, an expression in parentheses or
a factor behind a minus. A tree has tokens and a value, unless a divisor in it is zero.
-/

namespace Tariff.Formula

def Op.isAdditive : Op → Bool
  | .add | .sub => true
  | .mul | .div => false

mutual

/-- Terms, added and subtracted from left to right. -/
inductive Expr where
  | term (t : Term)
  | step (e : Expr) (o : Op) (h : o.isAdditive = true) (t : Term)

/-- Factors, multiplied and divided from left to right. -/
inductive Term where
  | factor (f : Factor)
  | step (t : Term) (o : Op) (h : o.isAdditive = false) (f : Factor)

inductive Factor where
  | number (x : Float)
  | named (v : Variable)
  | enclosed (e : Expr)
  | minus (f : Factor)

end

mutual

def Expr.tokens : Expr → List Token
  | .term t => t.tokens
  | .step e o _ t => e.tokens ++ .op o :: t.tokens

def Term.tokens : Term → List Token
  | .factor f => f.tokens
  | .step t o _ f => t.tokens ++ .op o :: f.tokens

def Factor.tokens : Factor → List Token
  | .number x => [.number x]
  | .named v => [.name v.name]
  | .enclosed e => .opening :: (e.tokens ++ [.closing])
  | .minus f => .op .sub :: f.tokens

end

mutual

/-- The value of a tree; none if a divisor in it is zero. -/
def Expr.value (b : Binding) : Expr → Except EvalError Float
  | .term t => t.value b
  | .step e o _ t => do o.apply (← e.value b) (← t.value b)

def Term.value (b : Binding) : Term → Except EvalError Float
  | .factor f => f.value b
  | .step t o _ f => do o.apply (← t.value b) (← f.value b)

def Factor.value (b : Binding) : Factor → Except EvalError Float
  | .number x => .ok x
  | .named v => .ok (b.get v)
  | .enclosed e => e.value b
  | .minus f => do return -(← f.value b)

end

def Spells (formula : String) (e : Expr) : Prop :=
  ∃ placed, tokens formula = .ok placed ∧ placed.map (·.2) = e.tokens

/-! ### Operations -/

lemma Op.apply_of_isAdditive {o : Op} (h : o.isAdditive = true) (x y : Float) :
    ∃ z, o.apply x y = .ok z := by
  cases o with
  | add | sub => exact ⟨_, rfl⟩
  | mul | div => cases h

lemma apply_cases (o : Op) (x y : Float) :
    (∃ z, o.apply x y = .ok z) ∨ o.apply x y = .error .divisionByZero := by
  cases o with
  | add | sub | mul => exact .inl ⟨_, rfl⟩
  | div =>
    have hdiv : Op.div.apply x y = if y == 0 then .error .divisionByZero else .ok (x / y) := rfl
    rw [hdiv]
    split_ifs
    · exact .inr rfl
    · exact .inl ⟨_, rfl⟩

lemma bind_apply_cases {u v : Except EvalError Float} (o : Op)
    (hu : (∃ x, u = .ok x) ∨ u = .error .divisionByZero)
    (hv : (∃ y, v = .ok y) ∨ v = .error .divisionByZero) :
    (∃ z, (do o.apply (← u) (← v)) = .ok z) ∨
      (do o.apply (← u) (← v)) = .error .divisionByZero := by
  rcases hu with ⟨x, rfl⟩ | rfl
  · rcases hv with ⟨y, rfl⟩ | rfl
    · exact apply_cases o x y
    · exact .inr rfl
  · exact .inr rfl

mutual

/-- The only fault of a tree is a division by zero. -/
theorem Expr.value_cases (b : Binding) (e : Expr) :
    (∃ x, e.value b = .ok x) ∨ e.value b = .error .divisionByZero := by
  cases e with
  | term t => exact t.value_cases b
  | step e o _ t => exact bind_apply_cases o (e.value_cases b) (t.value_cases b)

theorem Term.value_cases (b : Binding) (t : Term) :
    (∃ x, t.value b = .ok x) ∨ t.value b = .error .divisionByZero := by
  cases t with
  | factor f => exact f.value_cases b
  | step t o _ f => exact bind_apply_cases o (t.value_cases b) (f.value_cases b)

theorem Factor.value_cases (b : Binding) (f : Factor) :
    (∃ x, f.value b = .ok x) ∨ f.value b = .error .divisionByZero := by
  cases f with
  | number x => exact .inl ⟨x, rfl⟩
  | named v => exact .inl ⟨_, rfl⟩
  | enclosed e => exact e.value_cases b
  | minus f =>
    rcases f.value_cases b with ⟨x, hx⟩ | hx
    · exact .inl ⟨-x, by rw [Factor.value, hx]; rfl⟩
    · exact .inr (by rw [Factor.value, hx]; rfl)

end

/-! ### Longer terms -/

def Expr.times (o : Op) (h : o.isAdditive = false) (f : Factor) : Expr → Expr
  | .term t => .term (.step t o h f)
  | .step e o' h' t => .step e o' h' (.step t o h f)

lemma Expr.tokens_times (e : Expr) {o : Op} (h : o.isAdditive = false) (f : Factor) :
    (e.times o h f).tokens = e.tokens ++ .op o :: f.tokens := by
  cases e with
  | term t => rfl
  | step e o' h' t => simp [times, tokens, Term.tokens]

end Tariff.Formula
