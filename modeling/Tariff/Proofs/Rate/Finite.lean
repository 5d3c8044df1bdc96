import Tariff.Proofs.Decimal.Finite
import Tariff.Proofs.Lists
import Tariff.Rate.Compile

/-!
The numbers that the grammar finds in a rate text. A percentage is a finite numeral divided by a
hundred, so every rate on the value is finite, whichever rule finds it. Where the amounts of the
specific parts are finite too, nothing stops the program from writing the formula.
-/

namespace Tariff.Rate

open Tariff.Decimal

def Shape.rates : Shape → List Float
  | free => []
  | adValorem r => [r]
  | compound r _ => [r]
  | specific _ => []
  | range low high => [low, high]

def Shape.terms : Shape → List Term
  | compound _ ts => ts
  | specific t => [t]
  | _ => []

/-- The numbers of a formula are rates on the value and amounts of specific parts. -/
lemma Shape.mem_numbers {s : Shape} {x : Float} (h : x ∈ s.numbers) :
    x ∈ s.rates ∨ ∃ t ∈ s.terms, t.amount = x := by
  cases s with
  | free => cases h
  | adValorem r => exact .inl h
  | compound r ts =>
    rcases List.mem_cons.mp h with rfl | h
    · exact .inl (List.mem_singleton_self _)
    · exact .inr (List.mem_map.mp h)
  | specific t => exact .inr ⟨t, List.mem_singleton_self _, (List.mem_singleton.mp h).symm⟩
  | range low high => exact .inl (List.mem_cons.mpr (.inl (List.mem_singleton.mp h)))

lemma Shape.amount_mem_numbers {s : Shape} {t : Term} (h : t ∈ s.terms) :
    t.amount ∈ s.numbers := by
  cases s with
  | compound r ts => exact List.mem_cons_of_mem _ (List.mem_map_of_mem h)
  | specific u =>
    rw [List.mem_singleton.mp h]
    exact List.mem_singleton_self _
  | free | adValorem | range => cases h

lemma Shape.mem_rates_of_valueOnly? {s : Shape} {r : Float} (h : s.valueOnly? = some r) :
    r ∈ s.rates := by
  cases s with
  | adValorem => cases h; exact List.mem_singleton_self _
  | range => cases h; exact List.mem_cons_self
  | free | compound | specific => cases h

lemma isFinite_numeralValue? {s : List Char} {x : Float} (h : numeralValue? s = some x) :
    x.isFinite = true :=
  (Option.filter_eq_some_iff.mp h).2

lemma isFinite_percentage? {s : List Char} {r : Float} (h : percentage? s = some r) :
    r.isFinite = true := by
  obtain ⟨x, hx, rfl⟩ := Option.map_eq_some_iff.mp h
  exact isFinite_div (isFinite_numeralValue? hx) atLeastTwo_hundred

lemma isFinite_explicitPercent? {text : List Char} {r : Float}
    (h : explicitPercent? text = some r) : r.isFinite = true := by
  simp only [explicitPercent?, Option.bind_eq_bind, Option.bind_eq_some_iff] at h
  obtain ⟨⟨numeral, rest⟩, -, h⟩ := h
  dsimp only at h
  split_ifs at h
  exact isFinite_percentage? h

lemma isFinite_simplePercent? {text : List Char} {r : Float} (h : simplePercent? text = some r) :
    r.isFinite = true := by
  simp only [simplePercent?, Option.bind_eq_bind, Option.bind_eq_some_iff] at h
  obtain ⟨⟨numeral, rest⟩, -, rest', -, h⟩ := h
  split_ifs at h
  exact isFinite_percentage? h

lemma isFinite_percentComponent? {text : List Char} {r : Float}
    (h : percentComponent? text = some r) : r.isFinite = true := by
  simp only [percentComponent?, Option.bind_eq_bind, Option.bind_eq_some_iff] at h
  obtain ⟨⟨numeral, rest⟩, -, h⟩ := h
  dsimp only at h
  split_ifs at h
  exact isFinite_percentage? h

lemma isFinite_component? {hint : Option String} {text : List Char} {c : Component} {r : Float}
    (h : component? hint text = some c) (hr : c.rate? = some r) : r.isFinite = true := by
  unfold component? at h
  split at h
  next rate hrate =>
    cases h
    cases hr
    exact isFinite_percentComponent? hrate
  next =>
    obtain ⟨t, -, rfl⟩ := Option.map_eq_some_iff.mp h
    cases hr

lemma isFinite_compound? {text : String} {hint : Option String} {s : Shape}
    (h : compound? text hint = some s) : ∀ r ∈ s.rates, r.isFinite = true := by
  unfold compound? at h
  dsimp only at h
  split_ifs at h
  obtain ⟨cs, hcs, h⟩ := Option.bind_eq_some_iff.mp h
  split at h
  next rate hrate =>
    cases h
    have hmem : rate ∈ cs.filterMap Component.rate? := by
      rw [hrate]
      exact List.mem_singleton_self _
    obtain ⟨c, hc, hr⟩ := List.mem_filterMap.mp hmem
    obtain ⟨part, -, hp⟩ := exists_of_mem_mapM hcs hc
    simpa [Shape.rates] using isFinite_component? hp hr
  next => cases h

lemma isFinite_range? {text : String} {s : Shape} (h : range? text = some s) :
    ∀ r ∈ s.rates, r.isFinite = true := by
  simp only [range?, Option.bind_eq_bind, Option.bind_eq_some_iff] at h
  obtain ⟨⟨low, rest⟩, -, rest', -, ⟨high, rest''⟩, -, h⟩ := h
  dsimp only at h
  split_ifs at h
  simp only [Option.bind_eq_some_iff, Option.some.injEq] at h
  obtain ⟨a, ha, b, hb, rfl⟩ := h
  have ha := isFinite_percentage? ha
  have hb := isFinite_percentage? hb
  split_ifs <;> simp [Shape.rates, ha, hb]

lemma parse?_cases {text : String} {hint : Option String} {s : Shape}
    (h : parse? text hint = some s) :
    s = .free ∨ (∃ r, explicitPercent? text.toList = some r ∧ s = .adValorem r) ∨
      (∃ r, simplePercent? text.toList = some r ∧ s = .adValorem r) ∨
      compound? text hint = some s ∨ (∃ t, specific? text hint = some t ∧ s = .specific t) ∨
      range? text = some s := by
  simp only [parse?, Option.orElse_eq_orElse, Option.orElse_eq_or, Option.or_eq_some_iff,
    Option.map_eq_some_iff, Option.map_eq_none_iff] at h
  rcases h with h | ⟨-, ⟨r, hr, rfl⟩ | ⟨-, ⟨r, hr, rfl⟩ | ⟨-, h | ⟨-, ⟨t, ht, rfl⟩ | ⟨-, h⟩⟩⟩⟩⟩
  · split_ifs at h
    cases h
    exact .inl rfl
  · exact .inr (.inl ⟨r, hr, rfl⟩)
  · exact .inr (.inr (.inl ⟨r, hr, rfl⟩))
  · exact .inr (.inr (.inr (.inl h)))
  · exact .inr (.inr (.inr (.inr (.inl ⟨t, ht, rfl⟩))))
  · exact .inr (.inr (.inr (.inr (.inr h))))

lemma isFinite_of_mem_rates {text : String} {hint : Option String} {s : Shape}
    (h : parse? text hint = some s) : ∀ r ∈ s.rates, r.isFinite = true := by
  rcases parse?_cases h with rfl | ⟨r, hr, rfl⟩ | ⟨r, hr, rfl⟩ | h | ⟨t, -, rfl⟩ | h
  · simp [Shape.rates]
  · simpa [Shape.rates] using isFinite_explicitPercent? hr
  · simpa [Shape.rates] using isFinite_simplePercent? hr
  · exact isFinite_compound? h
  · simp [Shape.rates]
  · exact isFinite_range? h

/-! ### Writing -/

lemma fault?_eq_none_iff {x : Float} : Formula.fault? x = none ↔ x.isFinite = true := by
  unfold Formula.fault?
  split_ifs with h <;> simp [h]

lemma write_of_isFinite {x : Float} (h : x.isFinite = true) :
    Formula.write x = .ok (Formula.literal x) := by
  unfold Formula.write
  rw [fault?_eq_none_iff.mpr h]

namespace Shape

variable {s : Shape}

lemma findSome?_numbers : s.numbers.findSome? Formula.fault? = none ↔
    ∀ x ∈ s.numbers, x.isFinite = true := by
  simp only [List.findSome?_eq_none_iff, fault?_eq_none_iff]

lemma compile_of_finite (h : ∀ x ∈ s.numbers, x.isFinite = true) :
    s.compile = .compiled s.compiled := by
  unfold compile
  rw [findSome?_numbers.mpr h]

/-- A shape is written with finite numbers, or its first number that is not finite is told. -/
lemma compile_cases (s : Shape) :
    (∀ x ∈ s.numbers, x.isFinite = true) ∧ s.compile = .compiled s.compiled ∨
      ∃ f, s.numbers.findSome? Formula.fault? = some f ∧ s.compile = .stopped f := by
  cases hf : s.numbers.findSome? Formula.fault? with
  | none =>
    have hfinite := findSome?_numbers.mp hf
    exact .inl ⟨hfinite, compile_of_finite hfinite⟩
  | some f =>
    refine .inr ⟨f, rfl, ?_⟩
    unfold compile
    rw [hf]

lemma isFinite_numbers {text : String} {hint : Option String} (h : parse? text hint = some s)
    (ht : ∀ t ∈ s.terms, t.amount.isFinite = true) : ∀ x ∈ s.numbers, x.isFinite = true := by
  intro x hx
  rcases mem_numbers hx with hr | ⟨t, hmem, rfl⟩
  · exact isFinite_of_mem_rates h x hr
  · exact ht t hmem

lemma compile_of_parse? {text : String} {hint : Option String} (h : parse? text hint = some s)
    (ht : ∀ t ∈ s.terms, t.amount.isFinite = true) : s.compile = .compiled s.compiled :=
  compile_of_finite (isFinite_numbers h ht)

end Shape

end Tariff.Rate
