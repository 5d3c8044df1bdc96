import Tariff.Proofs.Decimal.Unit
import Tariff.Proofs.Formula.Admitted
import Tariff.Proofs.Rate.Safety

/-!
The duty that a rate stands for. The formula of a rate is only text, which the evaluator takes apart
again; what it finds there is the duty that the rate says, with every number as it is read back from
the text.
-/

namespace Tariff.Rate

open Tariff.Formula Tariff.Decimal

def Term.duty (b : Binding) (t : Term) : Float := b.get t.per * coefficient t.amount

def Shape.duty (b : Binding) : Shape → Float
  | free => 0
  | adValorem r => b.value * coefficient r
  | compound r ts => ts.foldl (fun d t => d + t.duty b) (b.value * coefficient r)
  | specific t => t.duty b
  | range low _ => b.value * coefficient low

/-! ### Formulas -/

lemma Shape.formula_of_products {s : Shape} {p : Variable × Float} {ps : List (Variable × Float)}
    (h : s.products = p :: ps) : s.formula = sumText (p :: ps) := by
  rcases s.formula_eq with ⟨hnil, -⟩ | ⟨-, hsum⟩
  · rw [h] at hnil
    cases hnil
  · rw [hsum, h]

lemma Shape.evaluate_of_products {s : Shape} {p : Variable × Float} {ps : List (Variable × Float)}
    (h : s.products = p :: ps) (hfinite : AllFinite s.products) (b : Binding) :
    evaluate s.formula b =
      .ok (ps.foldl (fun y q => y + productValue b q) (productValue b p)) := by
  rw [formula_of_products h]
  rw [h] at hfinite
  exact evaluate_sumText hfinite b

lemma Shape.evaluate_formula {s : Shape} (h : AllFinite s.products) (b : Binding) :
    evaluate s.formula b = .ok (s.duty b) := by
  cases s with
  | free => rfl
  | adValorem r => exact evaluate_of_products rfl h b
  | compound r ts =>
    rw [evaluate_of_products rfl h, List.foldl_map]
    rfl
  | specific t => exact evaluate_of_products rfl h b
  | range low high => exact evaluate_of_products rfl h b

lemma Shape.exists_spells {s : Shape} (h : AllFinite s.products) : ∃ e, Spells s.formula e :=
  exists_spells_of_evaluate (evaluate_formula h ⟨0, 0, 0⟩)

lemma Shape.exists_tokens {s : Shape} (h : AllFinite s.products) :
    ∃ placed, tokens s.formula = .ok placed ∧
      ∀ w, .name w ∈ placed.map (·.2) ↔ ∃ v ∈ s.vars, w = v.name := by
  have hvars : s.vars = Variable.named s.formula := (safe h).vars
  obtain ⟨e, he⟩ := exists_spells h
  have hnamed := mem_named_iff he.accepted he
  obtain ⟨placed, hplaced, htokens⟩ := he
  refine ⟨placed, hplaced, fun w => ?_⟩
  rw [htokens, hvars]
  constructor
  · intro hw
    obtain ⟨v, rfl⟩ := e.exists_of_name hw
    exact ⟨v, (hnamed v).mpr hw, rfl⟩
  · rintro ⟨v, hv, rfl⟩
    exact (hnamed v).mp hv

/-! ### Ranges -/

lemma le_of_range? {text : String} {low high : Float} (h : range? text = some (.range low high)) :
    low ≤ high := by
  simp only [range?, Option.bind_eq_bind, Option.bind_eq_some_iff] at h
  obtain ⟨⟨m, rest⟩, -, rest', -, ⟨n, rest''⟩, -, h⟩ := h
  dsimp only at h
  split_ifs at h
  simp only [Option.bind_eq_some_iff, Option.some.injEq] at h
  obtain ⟨x, hx, y, hy, h⟩ := h
  split_ifs at h with hlt
  · cases h
    exact le_of_lt hlt
  · cases h
    exact le_of_not_lt (isFinite_percentage? hx) (isFinite_percentage? hy) hlt

lemma compound?_ne_range {text : String} {hint : Option String} {low high : Float} :
    compound? text hint ≠ some (.range low high) := by
  intro h
  unfold compound? at h
  dsimp only at h
  split_ifs at h
  obtain ⟨cs, -, h⟩ := Option.bind_eq_some_iff.mp h
  split at h
  · cases h
  · cases h

lemma le_of_parse? {text : String} {hint : Option String} {low high : Float}
    (h : parse? text hint = some (.range low high)) : low ≤ high := by
  rcases parse?_cases h with h | ⟨_, -, h⟩ | ⟨_, -, h⟩ | h | ⟨_, -, h⟩ | h
  · cases h
  · cases h
  · cases h
  · exact absurd h compound?_ne_range
  · cases h
  · exact le_of_range? h

/-! ### The duty -/

/-- **The printed formula means the rate.** Where the amounts of a rate are finite, every number in
its formula is one that can be read back, and with these numbers the formula evaluates to the duty
that the rate says, whatever the value, the weight and the quantity. The names in it are exactly
those of the variables of the rate, and a range counts with the smaller one of its bounds. -/
theorem evaluate_eq_duty {text : String} {hint : Option String} {s : Shape}
    (h : parse? text hint = some s) (hfinite : ∀ t ∈ s.terms, t.amount.isFinite = true) :
    (∀ p ∈ s.products, read? (literal p.2).toList = some (coefficient p.2)) ∧
    (∀ b, evaluate s.formula b = .ok (s.duty b)) ∧
    (∃ placed, tokens s.formula = .ok placed ∧
      ∀ w, .name w ∈ placed.map (·.2) ↔ ∃ v ∈ s.vars, w = v.name) ∧
    ∀ low high, s = .range low high → low ≤ high := by
  have hall := Shape.allFinite_iff.mpr (Shape.isFinite_numbers h hfinite)
  refine ⟨fun p hp => read?_literal (hall p hp), Shape.evaluate_formula hall,
    Shape.exists_tokens hall, ?_⟩
  rintro low high rfl
  exact le_of_parse? h

def threeParts : Shape :=
  .compound (ofScaled 5 0 / 100) [⟨.weight, ofScaled 25 0 / 100⟩, ⟨.quantity, ofScaled 150 (-2)⟩]

theorem evaluate_threeParts :
    parse? "25¢/kg + 5% + $1.50 each" none = some threeParts ∧
      threeParts.formula = "value * 0.05 + weight * 0.25 + quantity * 1.5" ∧
      (∀ t ∈ threeParts.terms, t.amount.isFinite = true) ∧
      ∀ b, evaluate threeParts.formula b = .ok (b.value * ofScaled 5 (-2) +
        b.weight * ofScaled 25 (-2) + b.quantity * ofScaled 15 (-1)) := by
  have hparse : parse? "25¢/kg + 5% + $1.50 each" none = some threeParts := by rfl
  have hfinite : ∀ t ∈ threeParts.terms, t.amount.isFinite = true := by decide +kernel
  have hcoefficients : [coefficient (ofScaled 5 0 / 100), coefficient (ofScaled 25 0 / 100),
      coefficient (ofScaled 150 (-2))] = [ofScaled 5 (-2), ofScaled 25 (-2), ofScaled 15 (-1)] := by
    decide +kernel
  refine ⟨hparse, by decide +kernel, hfinite, fun b => ?_⟩
  simp only [List.cons.injEq] at hcoefficients
  obtain ⟨hvalue, hweight, hquantity, -⟩ := hcoefficients
  rw [(evaluate_eq_duty hparse hfinite).2.1 b, ← hvalue, ← hweight, ← hquantity]
  rfl

end Tariff.Rate
