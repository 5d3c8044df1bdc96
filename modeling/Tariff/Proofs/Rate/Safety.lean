import Tariff.Proofs.Formula.Products
import Tariff.Proofs.Rate.Finite

/-!
The formulas that the grammar compiles. Each is zero or a sum of products, so it is safe to store
and to evaluate, as the numbers in it are finite. The rates always are. An amount need not be: it
is divided by the counts that the text gives, and where a count below one carries it out of range
the program stops.
-/

namespace Tariff.Rate

open Tariff.Formula

/-- The gate lets the formula pass, its variables are the ones that it names, and it has a value
whatever they are. -/
structure Safe (c : Compiled) : Prop where
  accepted : Accepted c.formula
  vars : c.vars = Variable.named c.formula
  evaluates : ∀ b, ∃ x, evaluate c.formula b = .ok x

/-! ### Shapes as sums of products -/

/-- The products of a formula, each of a variable and a number. -/
def Shape.products : Shape → List (Variable × Float)
  | free => []
  | adValorem r => [(.value, r)]
  | compound r ts => (.value, r) :: ts.map fun t => (t.per, t.amount)
  | specific t => [(t.per, t.amount)]
  | range low _ => [(.value, low)]

lemma Shape.formula_eq (s : Shape) :
    s.products = [] ∧ s.formula = "0" ∨ s.products ≠ [] ∧ s.formula = sumText s.products := by
  cases s with
  | free => exact .inl ⟨rfl, rfl⟩
  | adValorem r => exact .inr ⟨by simp [products], (sumText_singleton (.value, r)).symm⟩
  | compound r ts =>
    refine .inr ⟨by simp [products], ?_⟩
    simp only [formula, sumText, products, List.map_cons, List.map_map]
    rfl
  | specific t => exact .inr ⟨by simp [products], (sumText_singleton (t.per, t.amount)).symm⟩
  | range low high => exact .inr ⟨by simp [products], (sumText_singleton (.value, low)).symm⟩

lemma Shape.vars_eq (s : Shape) : s.vars = Variable.canonical (s.products.map (·.1)) := by
  cases s with
  | free => rfl
  | adValorem r => rfl
  | compound r ts => simp only [vars, products, List.map_cons, List.map_map]; rfl
  | specific t =>
    obtain ⟨per, amount⟩ := t
    cases per <;> rfl
  | range low high => rfl

lemma Shape.map_products (s : Shape) : s.products.map (·.2) = s.numbers := by
  cases s with
  | compound r ts => simp only [products, numbers, List.map_cons, List.map_map]; rfl
  | free | adValorem | specific | range => rfl

/-- The numbers of the products are those that are written into the formula. -/
lemma Shape.allFinite_iff {s : Shape} :
    AllFinite s.products ↔ ∀ x ∈ s.numbers, x.isFinite = true := by
  rw [← map_products, List.forall_mem_map]
  rfl

/-! ### Safety -/

lemma exists_evaluate_zero (b : Binding) : ∃ x, evaluate "0" b = .ok x := ⟨_, rfl⟩

lemma safe_zero : Safe .zero where
  accepted := by decide +kernel
  vars := by decide +kernel
  evaluates := exists_evaluate_zero

lemma Shape.safe {s : Shape} (h : AllFinite s.products) : Safe s.compiled := by
  have hf : s.compiled.formula = s.formula := rfl
  have hv : s.compiled.vars = Variable.canonical (s.products.map (·.1)) := s.vars_eq
  rcases s.formula_eq with ⟨hp, hzero⟩ | ⟨hp, hsum⟩
  · refine ⟨?_, ?_, ?_⟩
    · rw [hf, hzero]
      exact safe_zero.accepted
    · rw [hf, hzero, hv, hp]
      exact safe_zero.vars
    · rw [hf, hzero]
      exact exists_evaluate_zero
  · refine ⟨?_, ?_, ?_⟩
    · rw [hf, hsum]
      exact accepted_sumText hp h
    · rw [hf, hsum, named_sumText h, hv]
    · rw [hf, hsum]
      exact exists_evaluate_sumText hp h

lemma Shape.knownNames {s : Shape} (h : AllFinite s.products) : KnownNames s.compiled.formula := by
  intro w hw
  have hf : s.compiled.formula = s.formula := rfl
  rw [hf] at hw
  rcases s.formula_eq with ⟨-, hzero⟩ | ⟨-, hsum⟩
  · have hnone : names "0".toList = [] := by decide +kernel
    rw [hzero, hnone] at hw
    cases hw
  · rw [hsum, names_sumText h] at hw
    obtain ⟨q, -, rfl⟩ := List.mem_map.mp hw
    exact ⟨q.1, rfl⟩

/-! ### Texts -/

/-- What a text says once it is understood; nothing for a text of blanks. -/
def shape? (text : String) (hint : Option String) : Option Shape :=
  if text.toList.all Text.isBlank then none else parse? (normalize text) hint

/-- The numbers that go into the formula of a text. -/
def numbers (text : String) (hint : Option String) : List Float :=
  ((shape? text hint).map Shape.numbers).getD []

/-- The amounts of the specific parts of a text, after all divisions. -/
def amounts (text : String) (hint : Option String) : List Float :=
  ((shape? text hint).map fun s => s.terms.map (·.amount)).getD []

variable {text : String} {hint : Option String}

/-- What comes of a text: it is blank, no rule knows it, or it says what a shape says. -/
lemma compile_cases (text : String) (hint : Option String) :
    shape? text hint = none ∧ (compile text hint = .compiled .zero ∨
        ∃ normal, compile text hint = .unresolved normal) ∨
      ∃ s, shape? text hint = some s ∧ parse? (normalize text) hint = some s ∧
        compile text hint = s.compile := by
  unfold compile shape?
  split_ifs with hb
  · exact .inl ⟨rfl, .inl rfl⟩
  · dsimp only
    cases hp : parse? (normalize text) hint with
    | none => exact .inl ⟨rfl, .inr ⟨_, rfl⟩⟩
    | some s => exact .inr ⟨s, rfl, rfl, rfl⟩

/-- What the grammar compiles is the formula of a shape with finite numbers. -/
lemma exists_shape_of_compile {c : Compiled} (h : compile text hint = .compiled c) :
    ∃ s : Shape, c = s.compiled ∧ AllFinite s.products ∧ numbers text hint = s.numbers := by
  unfold numbers
  rcases compile_cases text hint with ⟨hs, hc | ⟨normal, hc⟩⟩ | ⟨s, hs, -, hc⟩
  · rw [h] at hc
    cases hc
    exact ⟨.free, rfl, fun q hq => (List.not_mem_nil hq).elim, by rw [hs]; rfl⟩
  · rw [h] at hc
    cases hc
  · rw [h] at hc
    rcases s.compile_cases with ⟨hfinite, hw⟩ | ⟨f, -, hw⟩
    · rw [hw] at hc
      cases hc
      exact ⟨s, rfl, Shape.allFinite_iff.mpr hfinite, by rw [hs]; rfl⟩
    · rw [hw] at hc
      cases hc

lemma exists_compile_stopped_iff :
    (∃ f, compile text hint = .stopped f) ↔ ∃ x ∈ amounts text hint, x.isFinite = false := by
  unfold amounts
  rcases compile_cases text hint with ⟨hs, hc⟩ | ⟨s, hs, hparse, hc⟩
  · rw [hs]
    refine iff_of_false (fun ⟨f, hf⟩ => ?_) (by simp)
    rcases hc with hc | ⟨normal, hc⟩ <;> rw [hf] at hc <;> cases hc
  · rw [hs, hc, Option.map_some, Option.getD_some]
    rcases s.compile_cases with ⟨hfinite, hw⟩ | ⟨f, hf, hw⟩
    · rw [hw]
      refine iff_of_false nofun fun ⟨x, hx, hn⟩ => ?_
      obtain ⟨t, ht, rfl⟩ := List.mem_map.mp hx
      rw [hfinite _ (Shape.amount_mem_numbers ht)] at hn
      cases hn
    · refine iff_of_true ⟨f, hw⟩ ?_
      by_contra hall
      have hterms : ∀ t ∈ s.terms, t.amount.isFinite = true := fun t ht => by
        by_contra hn
        exact hall ⟨_, List.mem_map_of_mem ht, Bool.eq_false_iff.mpr hn⟩
      rw [Shape.findSome?_numbers.mpr (Shape.isFinite_numbers hparse hterms)] at hf
      cases hf

/-- **Compiled formulas are safe and finite.** Whenever a text compiles, every number in its formula
is finite, and the formula is safe. Of the texts that the grammar knows, those are kept from it in
which divisions have carried an amount out of range: there the program stops. -/
theorem compile_safe (text : String) (hint : Option String) :
    (∀ c, compile text hint = .compiled c →
      (∀ x ∈ numbers text hint, x.isFinite = true) ∧ Safe c) ∧
    ((∃ f, compile text hint = .stopped f) ↔ ∃ x ∈ amounts text hint, x.isFinite = false) := by
  refine ⟨fun c h => ?_, exists_compile_stopped_iff⟩
  obtain ⟨s, rfl, hfinite, hnumbers⟩ := exists_shape_of_compile h
  rw [hnumbers]
  exact ⟨Shape.allFinite_iff.mp hfinite, Shape.safe hfinite⟩

/-! ### A price out of range -/

/-- 308 nines for a tenth of a unit. -/
def hugePrice : List Char := '$' :: List.replicate 308 '9' ++ ['/', '.', '1']

-- The text stays a variable until strings have become lists, so that only lists are evaluated.
lemma normalize_hugePrice {cs : List Char} (h : cs = hugePrice) :
    normalize (String.ofList cs) = String.ofList cs := by
  unfold normalize
  rw [String.toList_ofList, h]
  exact congrArg String.ofList (by decide +kernel)

lemma parse?_hugePrice {cs : List Char} (h : cs = hugePrice) :
    (parse? (String.ofList cs) none).any
      (fun s => (s.numbers.findSome? fault?).isSome) = true := by
  unfold parse? isFree compound? specific? range?
  simp only [String.toList_ofList]
  rw [h]
  decide +kernel

lemma compile_hugePrice : ∃ f, compile (String.ofList hugePrice) none = .stopped f := by
  generalize hcs : hugePrice = cs
  obtain ⟨s, hs, hf⟩ := (Option.any_eq_true _ _).mp (parse?_hugePrice hcs.symm)
  have hcompile : compile (String.ofList cs) none = s.compile := by
    unfold compile
    rw [normalize_hugePrice hcs.symm]
    dsimp only
    rw [hs, String.toList_ofList, ← hcs]
    rfl
  rcases s.compile_cases with ⟨hfinite, -⟩ | ⟨f, -, hw⟩
  · rw [Shape.findSome?_numbers.mpr hfinite] at hf
    cases hf
  · exact ⟨f, hcompile.trans hw⟩

theorem compile_safe_half_kilogram :
    compile "$1/2 kg" none = .compiled
        (Shape.specific ⟨.weight, Decimal.ofScaled 1 0 / Decimal.ofScaled 2 0⟩).compiled ∧
      (∀ x ∈ numbers "$1/2 kg" none, x.isFinite = true) ∧
      Safe (Shape.specific ⟨.weight, Decimal.ofScaled 1 0 / Decimal.ofScaled 2 0⟩).compiled ∧
      ∃ x ∈ amounts (String.ofList hugePrice) none, x.isFinite = false := by
  have h : compile "$1/2 kg" none = .compiled
      (Shape.specific ⟨.weight, Decimal.ofScaled 1 0 / Decimal.ofScaled 2 0⟩).compiled := by rfl
  obtain ⟨hfinite, hsafe⟩ := (compile_safe "$1/2 kg" none).1 _ h
  exact ⟨h, hfinite, hsafe, (compile_safe _ none).2.mp compile_hugePrice⟩

end Tariff.Rate
