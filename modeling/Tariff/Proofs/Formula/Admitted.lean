import Tariff.Proofs.Formula.Chain
import Tariff.Proofs.Formula.Evaluable
import Tariff.Proofs.Formula.Parentheses

/-!
What evaluates passes the gate. The gate does not know the grammar, but nothing that the grammar
derives is refused: its characters are those of tokens, its names are variables, and its parentheses
match. The variables that the gate reports are the ones that the value depends on.
-/

namespace Tariff.Formula

open Tariff.Text

/-! ### Characters -/

lemma isAllowed_of_isNumberChar {c : Char} (h : isNumberChar c = true) : isAllowed c = true := by
  rcases Bool.or_eq_true _ _ ▸ h with h | h
  · simp [isAllowed, h]
  · rw [eq_of_beq h]
    decide

lemma Reads.isAllowed {text : List Char} {ts : List Token} (h : Reads text ts) :
    ∀ c ∈ text, isAllowed c = true := by
  induction h with
  | nil => simp
  | blank hc _ ih => exact List.forall_mem_cons.mpr ⟨by simp [Formula.isAllowed, hc], ih⟩
  | number _ hall _ _ _ ih =>
    exact List.forall_mem_append.mpr ⟨fun c hc => isAllowed_of_isNumberChar (hall c hc), ih⟩
  | name _ hall _ _ ih =>
    refine List.forall_mem_append.mpr ⟨fun c hc => ?_, ih⟩
    simp [Formula.isAllowed, hall c hc]
  | op o _ ih => exact List.forall_mem_cons.mpr ⟨by cases o <;> decide, ih⟩
  | opening _ ih | closing _ ih => exact List.forall_mem_cons.mpr ⟨by decide, ih⟩

lemma Reads.not_blank {text : List Char} {ts : List Token} (h : Reads text ts) (hts : ts ≠ []) :
    text.all isBlank = false := by
  induction h with
  | nil => exact absurd rfl hts
  | blank _ _ ih => rw [List.all_cons, ih hts, Bool.and_false]
  | number hs hall _ _ _ _ =>
    obtain ⟨c, s, rfl⟩ := List.exists_cons_of_ne_nil hs
    rw [List.cons_append, List.all_cons, isBlank_of_isNumberChar (hall c List.mem_cons_self),
      Bool.false_and]
  | name hs hall _ _ _ =>
    obtain ⟨c, s, rfl⟩ := List.exists_cons_of_ne_nil hs
    rw [List.cons_append, List.all_cons, (isBlank_of_isNameChar (hall c List.mem_cons_self)).1,
      Bool.false_and]
  | op o _ _ => rw [List.all_cons, (classes_char o).1, Bool.false_and]
  | opening _ _ | closing _ _ =>
    rw [List.all_cons]
    rfl

/-! ### Names -/

mutual

theorem Expr.exists_of_name {s : String} (e : Expr) (h : .name s ∈ e.tokens) :
    ∃ v : Variable, s = v.name := by
  cases e with
  | term t => exact t.exists_of_name h
  | step e o _ t =>
    rcases List.mem_append.mp h with h | h
    · exact e.exists_of_name h
    · exact t.exists_of_name (by simpa using h)

theorem Term.exists_of_name {s : String} (t : Term) (h : .name s ∈ t.tokens) :
    ∃ v : Variable, s = v.name := by
  cases t with
  | factor f => exact f.exists_of_name h
  | step t o _ f =>
    rcases List.mem_append.mp h with h | h
    · exact t.exists_of_name h
    · exact f.exists_of_name (by simpa using h)

theorem Factor.exists_of_name {s : String} (f : Factor) (h : .name s ∈ f.tokens) :
    ∃ v : Variable, s = v.name := by
  cases f with
  | number x => simp [Factor.tokens] at h
  | named v => exact ⟨v, by simpa [Factor.tokens] using h⟩
  | enclosed e => exact e.exists_of_name (by simpa [Factor.tokens] using h)
  | minus f => exact f.exists_of_name (by simpa [Factor.tokens] using h)

end

/-- The grammar derives nothing that the gate refuses. -/
lemma Spells.accepted {formula : String} {e : Expr} (h : Spells formula e) : Accepted formula := by
  obtain ⟨placed, hplaced, htokens⟩ := h
  have hreads : Reads formula.toList e.tokens := by
    rw [← htokens]
    exact reads_of_tokensFrom hplaced
  refine accepted_iff.mpr ⟨hreads.not_blank e.tokens_ne_nil, hreads.isAllowed, fun w hw => ?_, ?_⟩
  · rw [← hreads.names_eq, mem_iff_name?] at hw
    obtain ⟨v, rfl⟩ := e.exists_of_name hw
    cases v <;> decide
  · rw [hreads.balanced_eq]
    exact e.matched

/-! ### What a value depends on -/

mutual

theorem Expr.value_congr {b b' : Binding} (e : Expr)
    (h : ∀ v : Variable, .name v.name ∈ e.tokens → b'.get v = b.get v) :
    e.value b' = e.value b := by
  cases e with
  | term t => exact t.value_congr h
  | step e o _ t =>
    rw [Expr.value, Expr.value, e.value_congr fun v hv => h v (by simp [Expr.tokens, hv]),
      t.value_congr fun v hv => h v (by simp [Expr.tokens, hv])]

theorem Term.value_congr {b b' : Binding} (t : Term)
    (h : ∀ v : Variable, .name v.name ∈ t.tokens → b'.get v = b.get v) :
    t.value b' = t.value b := by
  cases t with
  | factor f => exact f.value_congr h
  | step t o _ f =>
    rw [Term.value, Term.value, t.value_congr fun v hv => h v (by simp [Term.tokens, hv]),
      f.value_congr fun v hv => h v (by simp [Term.tokens, hv])]

theorem Factor.value_congr {b b' : Binding} (f : Factor)
    (h : ∀ v : Variable, .name v.name ∈ f.tokens → b'.get v = b.get v) :
    f.value b' = f.value b := by
  cases f with
  | number x => rfl
  | named v => exact congrArg Except.ok (h v (by simp [Factor.tokens]))
  | enclosed e => exact e.value_congr fun v hv => h v (by simp [Factor.tokens, hv])
  | minus f =>
    rw [Factor.value, Factor.value, f.value_congr fun v hv => h v (by simp [Factor.tokens, hv])]

end

/-- **What evaluates is admitted.** The gate accepts every formula that has a value; the variables
that it reports are exactly the names among the tokens, and the value is the same wherever these
variables are. -/
theorem evaluated_admitted {formula : String} {b : Binding} {x : Float}
    (h : evaluate formula b = .ok x) :
    (check formula).refusal = none ∧
    (∃ placed, tokens formula = .ok placed ∧
      ∀ s, .name s ∈ placed.map (·.2) ↔ ∃ v ∈ (check formula).vars, s = v.name) ∧
    ∀ b', (∀ v ∈ (check formula).vars, b'.get v = b.get v) → evaluate formula b' = .ok x := by
  obtain ⟨e, he⟩ := exists_spells_of_evaluate h
  rw [check_of_accepted he.accepted]
  have hnamed := mem_named_iff he.accepted he
  refine ⟨rfl, ?_, fun b' hb' => ?_⟩
  · obtain ⟨placed, hplaced, htokens⟩ := id he
    refine ⟨placed, hplaced, fun s => ?_⟩
    rw [htokens]
    constructor
    · intro hs
      obtain ⟨v, rfl⟩ := e.exists_of_name hs
      exact ⟨v, (hnamed v).mpr hs, rfl⟩
    · rintro ⟨v, hv, rfl⟩
      exact (hnamed v).mp hv
  · rw [← h, evaluate_of_spells he, evaluate_of_spells he]
    exact e.value_congr fun v hv => hb' v ((hnamed v).mpr hv)

theorem evaluated_admitted_spaced :
    evaluate " (value+.5)*-\tweight" ⟨2, 3, 4⟩ = .ok ((2 + Decimal.ofScaled 5 (-1)) * -3) ∧
      (check " (value+.5)*-\tweight").refusal = none ∧
      (check " (value+.5)*-\tweight").vars = [.value, .weight] ∧
      evaluate " (value+.5)*-\tweight" ⟨2, 3, 0⟩ = .ok ((2 + Decimal.ofScaled 5 (-1)) * -3) := by
  have h : evaluate " (value+.5)*-\tweight" ⟨2, 3, 4⟩ =
      .ok ((2 + Decimal.ofScaled 5 (-1)) * -3) := rfl
  have hvars : (check " (value+.5)*-\tweight").vars = [.value, .weight] := by decide +kernel
  obtain ⟨hgate, -, hsame⟩ := evaluated_admitted h
  refine ⟨h, hgate, hvars, hsame ⟨2, 3, 0⟩ fun v hv => ?_⟩
  rw [hvars] at hv
  cases v with
  | value | weight => rfl
  | quantity => simp at hv

end Tariff.Formula
