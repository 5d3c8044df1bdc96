import Mathlib.Tactic.Common
import Tariff.Formula.Gate

/-!
What the gate asks of a formula, all at once.
-/

namespace Tariff.Formula

open Tariff.Text

lemma balanced_cons {c : Char} (h : c ≠ '(' ∧ c ≠ ')') (depth : Nat) (cs : List Char) :
    balanced depth (c :: cs) = balanced depth cs := by
  rw [balanced.eq_def]
  split
  next he => cases he
  next he => exact absurd (List.cons.inj he).1 h.1
  next he => exact absurd (List.cons.inj he).1 h.2
  next he => rw [(List.cons.inj he).2]

lemma balanced_of_no_parentheses {depth : Nat} {cs : List Char} (h : ∀ c ∈ cs, c ≠ '(' ∧ c ≠ ')') :
    balanced depth cs = (depth == 0) := by
  induction cs with
  | nil => rfl
  | cons c cs ih =>
    rw [List.forall_mem_cons] at h
    rw [balanced_cons h.1, ih h.2]

/-- The gate lets a formula pass that is not blank, is written in allowed characters, names nothing
forbidden and closes what it opens. -/
lemma accepted_iff {formula : String} : Accepted formula ↔
    formula.toList.all isBlank = false ∧ (∀ c ∈ formula.toList, isAllowed c = true) ∧
      (∀ w ∈ names formula.toList, w ∉ forbiddenWords) ∧ balanced 0 formula.toList = true := by
  have hc : formula.toList.find? (!isAllowed ·) = none ↔
      ∀ c ∈ formula.toList, isAllowed c = true := by simp
  have hw : (names formula.toList).find? (forbiddenWords.contains ·) = none ↔
      ∀ w ∈ names formula.toList, w ∉ forbiddenWords := by simp
  unfold Accepted refusal?
  rw [← hc, ← hw]
  dsimp only
  cases formula.toList.all isBlank with
  | true => simp
  | false =>
    cases formula.toList.find? (!isAllowed ·) with
    | some c => simp
    | none =>
      cases (names formula.toList).find? (forbiddenWords.contains ·) with
      | some w => simp
      | none => cases balanced 0 formula.toList <;> simp

lemma check_of_accepted {formula : String} (h : Accepted formula) :
    check formula = ⟨none, Variable.named formula⟩ := by
  unfold check
  rw [show refusal? formula = none from h]

end Tariff.Formula
