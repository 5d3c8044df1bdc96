import Tariff.Proofs.Formula.Evaluation
import Tariff.Proofs.Formula.Sum

/-!
The value of a sum of products. A number is written with a minus in front or without, and either way
it is read as one number. So the text spells the sum that it looks like, taken from left to right,
with the numbers that are read in place of those that were written.
-/

namespace Tariff.Formula

open Tariff.Text Tariff.Decimal

/-- The number that a number is read as where it is written in a formula. -/
def coefficient (x : Float) : Float := (read? (literal x).toList).getD 0

def numeralFactor : List Char → Factor
  | '-' :: d => .minus (.number ((read? d).getD 0))
  | d => .number ((read? d).getD 0)

lemma IsNumeral.factor {s : List Char} (hs : IsNumeral s) :
    ∃ c, read? s = some c ∧ (∀ b, (numeralFactor s).value b = .ok c) ∧
      ∀ {rest : List Char} {ts : List Token}, rest.head?.any isNumberChar = false →
        Lexes rest ts → Lexes (s ++ rest) ((numeralFactor s).tokens ++ ts) := by
  obtain ⟨sign, d, hsign, hd, rfl⟩ := hs
  obtain ⟨x, hx⟩ := exists_read? hd
  rcases hsign with rfl | rfl
  · have hfactor : numeralFactor d = .number x := by
      obtain ⟨w, f, hne, hw, -, rfl⟩ := hd
      obtain ⟨c, cs, rfl⟩ := List.exists_cons_of_ne_nil hne
      have hc : c ≠ '-' := by
        rintro rfl
        exact absurd (hw '-' List.mem_cons_self) (by decide)
      have hread : numeralFactor (c :: (cs ++ point f)) =
          .number ((read? (c :: (cs ++ point f))).getD 0) := by
        unfold numeralFactor
        split
        next h => exact absurd (List.cons.inj h).1 hc
        next => rfl
      exact hread.trans (by rw [← List.cons_append, hx]; rfl)
    rw [List.nil_append, hfactor]
    exact ⟨x, hx, fun _ => rfl, fun hr h => lexes_decimal hd hx hr h⟩
  · have hfactor : numeralFactor ('-' :: d) = .minus (.number x) := by
      have hread : numeralFactor ('-' :: d) = .minus (.number ((read? d).getD 0)) := rfl
      rw [hread, hx]
      rfl
    have hminus : read? ('-' :: d) = some (-x) := by
      rw [read?_minus hd, hx]
      rfl
    rw [List.singleton_append, hfactor]
    exact ⟨-x, hminus, fun _ => rfl, fun hr h => (lexes_decimal hd hx hr h).op .sub⟩

lemma read?_literal {x : Float} (h : x.isFinite = true) :
    read? (literal x).toList = some (coefficient x) := by
  obtain ⟨c, hc, -⟩ := (isNumeral_literal h).factor
  unfold coefficient
  rw [hc]
  rfl

/-! ### Trees -/

def productTerm (p : Variable × Float) : Term :=
  .step (.factor (.named p.1)) .mul (by decide) (numeralFactor (literal p.2).toList)

def addProducts (e : Expr) (ps : List (Variable × Float)) : Expr :=
  ps.foldl (fun e p => .step e .add (by decide) (productTerm p)) e

def productValue (b : Binding) (p : Variable × Float) : Float := b.get p.1 * coefficient p.2

lemma addProducts_cons (e : Expr) (p : Variable × Float) (ps : List (Variable × Float)) :
    addProducts e (p :: ps) = addProducts (.step e .add (by decide) (productTerm p)) ps := rfl

lemma tokens_addProducts (e : Expr) (ps : List (Variable × Float)) : (addProducts e ps).tokens =
    e.tokens ++ ps.flatMap fun p => .op .add :: (productTerm p).tokens := by
  induction ps generalizing e with
  | nil => exact (List.append_nil _).symm
  | cons p ps ih =>
    rw [addProducts_cons, ih, Expr.tokens, List.flatMap_cons, List.append_assoc]

lemma value_productTerm {p : Variable × Float} (h : p.2.isFinite = true) (b : Binding) :
    (productTerm p).value b = .ok (productValue b p) := by
  obtain ⟨c, hc, hvalue, -⟩ := (isNumeral_literal h).factor
  have hcoefficient : coefficient p.2 = c := Option.some.inj ((read?_literal h).symm.trans hc)
  unfold productTerm productValue
  rw [Term.value, hvalue, hcoefficient]
  rfl

lemma value_addProducts {ps : List (Variable × Float)} (h : AllFinite ps) {b : Binding} {e : Expr}
    {x : Float} (he : e.value b = .ok x) : (addProducts e ps).value b =
      .ok (ps.foldl (fun y p => y + productValue b p) x) := by
  induction ps generalizing e x with
  | nil => exact he
  | cons p ps ih =>
    obtain ⟨hp, hps⟩ := List.forall_mem_cons.mp h
    rw [addProducts_cons, List.foldl_cons]
    refine ih hps ?_
    rw [Expr.value, he, value_productTerm hp]
    rfl

/-! ### Texts -/

lemma lexes_productTerm {p : Variable × Float} (h : p.2.isFinite = true) {rest : List Char}
    {ts : List Token} (hr : rest.head?.any isNumberChar = false) (hl : Lexes rest ts) :
    Lexes ((productText p.1 p.2).toList ++ rest) ((productTerm p).tokens ++ ts) := by
  obtain ⟨c, -, -, hnumeral⟩ := (isNumeral_literal h).factor
  exact lexes_productText p.1 (hnumeral hr hl)

/-- **A sum of products spells what it looks like.** -/
lemma spells_sumText {p : Variable × Float} {ps : List (Variable × Float)}
    (h : AllFinite (p :: ps)) :
    Spells (sumText (p :: ps)) (addProducts (.term (productTerm p)) ps) := by
  have hl : Lexes (sumText (p :: ps)).toList (addProducts (.term (productTerm p)) ps).tokens := by
    induction ps generalizing p with
    | nil =>
      rw [sumText_singleton]
      have := lexes_productTerm (h p List.mem_cons_self) rfl Lexes.nil
      rwa [List.append_nil, List.append_nil] at this
    | cons q qs ih =>
      obtain ⟨hp, hqs⟩ := List.forall_mem_cons.mp h
      have hblank : isBlank ' ' = true := by decide
      have hrest := ((((ih hqs).blank hblank).op .add).blank hblank)
      rw [toList_sumText_cons, tokens_addProducts, List.flatMap_cons]
      have := lexes_productTerm hp rfl hrest
      rwa [tokens_addProducts] at this
  exact hl 0

lemma evaluate_sumText {p : Variable × Float} {ps : List (Variable × Float)}
    (h : AllFinite (p :: ps)) (b : Binding) : evaluate (sumText (p :: ps)) b =
      .ok (ps.foldl (fun y q => y + productValue b q) (productValue b p)) := by
  obtain ⟨hp, hps⟩ := List.forall_mem_cons.mp h
  rw [evaluate_of_spells (spells_sumText h)]
  exact value_addProducts hps (value_productTerm hp b)

lemma exists_evaluate_sumText {ps : List (Variable × Float)} (hne : ps ≠ []) (h : AllFinite ps)
    (b : Binding) : ∃ x, evaluate (sumText ps) b = .ok x := by
  obtain ⟨p, qs, rfl⟩ := List.exists_cons_of_ne_nil hne
  exact ⟨_, evaluate_sumText h b⟩

end Tariff.Formula
