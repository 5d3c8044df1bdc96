import Tariff.Proofs.Formula.Gate
import Tariff.Proofs.Formula.Grammar
import Tariff.Proofs.Formula.Pieces

/-!
Matching parentheses. The gate counts them among the characters; among the tokens they come out the
same. What closes all that it opens leaves the count as it was, and expressions do.
-/

namespace Tariff.Formula

/-! ### Among characters -/

lemma balanced_append {n : Nat} {s : List Char} (h : balanced n s = true) (depth : Nat)
    (rest : List Char) : balanced (n + depth) (s ++ rest) = balanced depth rest := by
  induction s generalizing n with
  | nil =>
    obtain rfl := eq_of_beq h
    rw [Nat.zero_add, List.nil_append]
  | cons c cs ih =>
    by_cases ho : c = '('
    · subst ho
      have := ih (n := n + 1) h
      rwa [Nat.add_right_comm] at this
    by_cases hc : c = ')'
    · subst hc
      cases n with
      | zero => cases h
      | succ n =>
        rw [Nat.add_right_comm]
        exact ih (n := n) h
    rw [balanced_cons ⟨ho, hc⟩] at h
    rw [List.cons_append, balanced_cons ⟨ho, hc⟩, ih h]

lemma balanced_append_of_not {s : List Char} (h : ∀ c ∈ s, c ≠ '(' ∧ c ≠ ')') (depth : Nat)
    (rest : List Char) : balanced depth (s ++ rest) = balanced depth rest := by
  have := balanced_append (n := 0) (balanced_of_no_parentheses h) depth rest
  rwa [Nat.zero_add] at this

/-! ### Among tokens -/

/-- Whether the parentheses match when `depth` of them are open. -/
def matched (depth : Nat) : List Token → Bool
  | [] => depth == 0
  | .opening :: ts => matched (depth + 1) ts
  | .closing :: ts =>
    match depth with
    | 0 => false
    | d + 1 => matched d ts
  | _ :: ts => matched depth ts

lemma Reads.balanced_eq {text : List Char} {ts : List Token} (h : Reads text ts) (depth : Nat) :
    balanced depth text = matched depth ts := by
  induction h generalizing depth with
  | nil => rfl
  | blank hc _ ih =>
    rw [← ih]
    exact balanced_cons (by constructor <;> (rintro rfl; revert hc; decide)) _ _
  | number _ hall _ _ _ ih =>
    rw [balanced_append_of_not fun c hc => ?_, ih]
    · rfl
    · constructor <;> (rintro rfl; exact absurd (hall _ hc) (by decide))
  | name _ hall _ _ ih =>
    rw [balanced_append_of_not fun c hc => ?_, ih]
    · rfl
    · constructor <;> (rintro rfl; exact absurd (hall _ hc) (by decide))
  | op o _ ih =>
    rw [balanced_cons ⟨(classes_char o).2.2.2.1, (classes_char o).2.2.2.2.1⟩, ih]
    rfl
  | opening _ ih => exact ih (depth + 1)
  | closing _ ih =>
    cases depth with
    | zero => rfl
    | succ depth => exact ih depth

mutual

theorem Expr.matched_append (e : Expr) (depth : Nat) (rest : List Token) :
    matched depth (e.tokens ++ rest) = matched depth rest := by
  cases e with
  | term t => exact t.matched_append depth rest
  | step e o _ t =>
    rw [Expr.tokens, List.append_assoc, e.matched_append]
    exact t.matched_append depth rest

theorem Term.matched_append (t : Term) (depth : Nat) (rest : List Token) :
    matched depth (t.tokens ++ rest) = matched depth rest := by
  cases t with
  | factor f => exact f.matched_append depth rest
  | step t o _ f =>
    rw [Term.tokens, List.append_assoc, t.matched_append]
    exact f.matched_append depth rest

theorem Factor.matched_append (f : Factor) (depth : Nat) (rest : List Token) :
    matched depth (f.tokens ++ rest) = matched depth rest := by
  cases f with
  | number | named => rfl
  | enclosed e =>
    have h : matched depth ((Factor.enclosed e).tokens ++ rest) =
        matched (depth + 1) (e.tokens ++ ([.closing] ++ rest)) := by
      rw [← List.append_assoc]
      rfl
    rw [h, e.matched_append]
    rfl
  | minus f => exact f.matched_append depth rest

end

lemma Expr.matched (e : Expr) : matched 0 e.tokens = true := by
  rw [← List.append_nil e.tokens, e.matched_append]
  rfl

end Tariff.Formula
