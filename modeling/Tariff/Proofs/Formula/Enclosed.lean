import Tariff.Proofs.Formula.Evaluable
import Tariff.Proofs.Formula.Parentheses

/-!
Formulas in parentheses. A formula that closes all that it opens cannot get out of the parentheses
that are put around it: inside them it has the tokens that it has alone, and the evaluation comes to
the same result, with which it goes on behind them. A fault other than a division by zero stays a
fault, but it may be another one, since the formula does not end where it ended.
-/

namespace Tariff.Formula

open Tariff.Text

/-! ### Results -/

/-- The same value, a division by zero both times, or two other faults. -/
inductive SameResult : Except EvalError Float → Except EvalError Float → Prop where
  | value (x : Float) : SameResult (.ok x) (.ok x)
  | zeroDivision : SameResult (.error .divisionByZero) (.error .divisionByZero)
  | fault {d e : EvalError} (hd : d ≠ .divisionByZero) (he : e ≠ .divisionByZero) :
      SameResult (.error d) (.error e)

namespace SameResult

variable {u v : Except EvalError Float}

lemma ok_iff (h : SameResult u v) (x : Float) : u = .ok x ↔ v = .ok x := by
  cases h with
  | value | zeroDivision => exact Iff.rfl
  | fault => exact iff_of_false nofun nofun

lemma zeroDivision_iff (h : SameResult u v) :
    u = .error .divisionByZero ↔ v = .error .divisionByZero := by
  cases h with
  | value | zeroDivision => exact Iff.rfl
  | fault hd he =>
    exact iff_of_false (fun h => hd (Except.error.inj h)) fun h => he (Except.error.inj h)

lemma refl : ∀ u, SameResult u u
  | .ok x => .value x
  | .error e => by
    by_cases h : e = .divisionByZero
    · rw [h]
      exact .zeroDivision
    · exact .fault h h

/-- What waits for its right operand settles to the same value. -/
lemma settle {w : Option (Float × Op)} {x : Float} {f g : Float → Except EvalError Float}
    (h : ∀ y, SameResult (f y) (g y)) : SameResult (settle w x >>= f) (settle w x >>= g) := by
  rcases settle_cases w x with ⟨y, hy⟩ | hy <;> rw [hy]
  · exact h y
  · exact .zeroDivision

end SameResult

/-! ### Evaluation -/

/-- The evaluation behind an expression in parentheses, which has the value `x`. -/
def resume (b : Binding) (p : Partial) (outer : List Partial) (rest : List Placed) (x : Float) :
    Except EvalError Float := p.term x >>= fun y => termRead b p outer y rest

mutual

-- The induction is on the tokens in the parentheses, in step with the evaluator. `inner` are the
-- parentheses that they have opened themselves; the count says that these are closed again before
-- the one around all of them.

theorem sameResult_factorDue (b : Binding) (p q : Partial) (inner outer : List Partial) (j : Nat)
    {left right rest : List Placed} (h : left.map (·.2) = right.map (·.2))
    (hm : matched inner.length (left.map (·.2)) = true) :
    SameResult (factorDue b p (inner ++ q :: outer) (left ++ (j, .closing) :: rest))
      (factorDue b p inner right >>= resume b q outer rest) := by
  rcases left with - | ⟨⟨i, _⟩, left⟩
  · obtain rfl := List.map_eq_nil_iff.mp h.symm
    exact .fault nofun nofun
  obtain ⟨⟨k, t⟩, right, rfl, rfl, hrest⟩ := List.map_eq_cons_iff.mp h.symm
  replace h := hrest.symm
  cases t with
  | number x =>
    rw [List.cons_append, factorDue_number, factorDue_number, bind_assoc]
    exact .settle fun y => sameResult_termRead b p q inner outer j y h hm
  | name s =>
    rw [List.cons_append, factorDue_name, factorDue_name]
    cases Variable.ofName? s with
    | none => exact .fault nofun nofun
    | some v =>
      dsimp only
      rw [bind_assoc]
      exact .settle fun y => sameResult_termRead b p q inner outer j y h hm
  | op o =>
    cases o with
    | sub =>
      rw [List.cons_append, factorDue_minus, factorDue_minus]
      exact sameResult_factorDue b _ q inner outer j h hm
    | add | mul | div => exact .fault nofun nofun
  | opening =>
    rw [List.cons_append, factorDue_opening, factorDue_opening]
    exact sameResult_factorDue b {} q (p :: inner) outer j h hm
  | closing => exact .fault nofun nofun

theorem sameResult_termRead (b : Binding) (p q : Partial) (inner outer : List Partial) (j : Nat)
    (x : Float) {left right rest : List Placed} (h : left.map (·.2) = right.map (·.2))
    (hm : matched inner.length (left.map (·.2)) = true) :
    SameResult (termRead b p (inner ++ q :: outer) x (left ++ (j, .closing) :: rest))
      (termRead b p inner x right >>= resume b q outer rest) := by
  rcases left with - | ⟨⟨i, _⟩, left⟩
  · obtain rfl := List.map_eq_nil_iff.mp h.symm
    obtain rfl : inner = [] := List.length_eq_zero_iff.mp (eq_of_beq hm)
    exact .refl _
  obtain ⟨⟨k, t⟩, right, rfl, rfl, hrest⟩ := List.map_eq_cons_iff.mp h.symm
  replace h := hrest.symm
  cases t with
  | op o =>
    cases ho : o.isAdditive with
    | true =>
      rw [List.cons_append, termRead_additive _ _ _ _ _ _ ho, termRead_additive _ _ _ _ _ _ ho,
        bind_assoc]
      exact .settle fun y => sameResult_factorDue b _ q inner outer j h hm
    | false =>
      rw [List.cons_append, termRead_multiplicative _ _ _ _ _ _ ho,
        termRead_multiplicative _ _ _ _ _ _ ho]
      exact sameResult_factorDue b _ q inner outer j h hm
  | closing =>
    cases inner with
    | nil => cases hm
    | cons p' inner =>
      rw [List.cons_append, List.cons_append, termRead_closing, termRead_closing]
      simp only [bind_assoc]
      exact .settle fun y => .settle fun z => sameResult_termRead b p' q inner outer j z h hm
  | number | name | opening => cases inner <;> exact .fault nofun nofun

end

lemma evaluate_eq_of_tokens {formula : String} {placed : List Placed} (b : Binding)
    (h : tokens formula = .ok placed) : evaluate formula b = factorDue b {} [] placed := by
  unfold evaluate
  rw [h]
  rfl

lemma evaluate_of_error {formula : String} {e : EvalError} (b : Binding)
    (h : tokens formula = .error e) : evaluate formula b = .error e := by
  unfold evaluate
  rw [h]
  rfl

def enclosed (formula : String) (rest : List Char) : String :=
  String.ofList ('(' :: (formula.toList ++ ')' :: rest))

/-- **Nothing gets out of parentheses.** The evaluation of a formula in parentheses comes to the
result of the formula, and goes on behind them if that is a value. -/
theorem sameResult_enclosed {formula : String} (hb : balanced 0 formula.toList = true)
    {rest : List Char} {us : List Token} (hrest : Lexes rest us) :
    ∃ vs : List Placed, vs.map (·.2) = us ∧ ∀ b, SameResult (evaluate (enclosed formula rest) b)
      (evaluate formula b >>= resume b {} [] vs) := by
  have hlist : (enclosed formula rest).toList = '(' :: (formula.toList ++ ')' :: rest) :=
    String.toList_ofList
  cases htokens : tokens formula with
  | error e =>
    obtain ⟨c, i, rfl⟩ := error_of_tokensFrom htokens
    obtain ⟨vs, -, hvs⟩ := hrest 0
    refine ⟨vs, hvs, fun b => ?_⟩
    cases hwhole : tokens (enclosed formula rest) with
    | error e =>
      obtain ⟨d, j, rfl⟩ := error_of_tokensFrom hwhole
      rw [evaluate_of_error b hwhole, evaluate_of_error b htokens]
      exact .fault nofun nofun
    | ok all =>
      unfold tokens at hwhole
      rw [hlist, tokensFrom_opening] at hwhole
      obtain ⟨placed, hplaced, -⟩ := map_eq_ok.mp hwhole
      obtain ⟨us, hus⟩ := (reads_of_tokensFrom hplaced).exists_of_append rfl
      obtain ⟨alone, halone, -⟩ := hus.lexes 0
      exact absurd (htokens.symm.trans halone) nofun
  | ok placed =>
    have hreads : Reads formula.toList (placed.map (·.2)) := reads_of_tokensFrom htokens
    obtain ⟨all, hall, hmap⟩ := (hreads.lexes_append rfl rfl hrest.closing).opening 0
    obtain ⟨⟨i, _⟩, _, rfl, rfl, hinner⟩ := List.map_eq_cons_iff.mp hmap
    obtain ⟨left, _, rfl, hleft, hbehind⟩ := List.map_eq_append_iff.mp hinner
    obtain ⟨⟨j, _⟩, vs, rfl, rfl, hvs⟩ := List.map_eq_cons_iff.mp hbehind
    refine ⟨vs, hvs, fun b => ?_⟩
    have hwhole : tokens (enclosed formula rest) =
        .ok ((i, .opening) :: (left ++ (j, .closing) :: vs)) := by
      unfold tokens
      rw [hlist]
      exact hall
    rw [evaluate_eq_of_tokens b hwhole, evaluate_eq_of_tokens b htokens, factorDue_opening]
    refine sameResult_factorDue b {} {} [] [] j hleft ?_
    rw [hleft, List.length_nil, ← hreads.balanced_eq, hb]

end Tariff.Formula
