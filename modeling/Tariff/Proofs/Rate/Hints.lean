import Tariff.Proofs.Rate.Compound

/-!
What a hint does to a rate. A text that is known without a hint is known with one, as the same
rate but for the variable of the terms whose unit is a bare number: a unit word that is known says
its own variable, whatever the hint.
-/

namespace Tariff.Rate

open Tariff.Text

/-! ### Units and amounts of a specific rate -/

/-- The unit of a specific rate: a word, or none where a bare number stands for it. -/
def unitOf? (part : String) : Option (Option String) :=
  match readEach part.toList with
  | some (_, word) => some (some word)
  | none => (readPerUnit part.toList).map (·.unit)

def amountOf? (part : String) : Option Float :=
  match readEach part.toList with
  | some (price, _) => price.dollars?
  | none => do
    let p ← readPerUnit part.toList
    (p.count.toList ++ p.divisor.toList).foldlM divide? (← p.price.dollars?)

def perOf? (hint : Option String) : Option String → Option Variable
  | some word => resolveWord? word hint
  | none => some (numericUnit hint)

/-- A bare number stands for the unit. -/
def BareNumber (part : String) : Prop := unitOf? part = some none

/-- Whatever is written as the unit is a word that is known. -/
def KnownUnit (part : String) : Prop :=
  ∀ unit, unitOf? part = some unit → ∃ word, unit = some word ∧ (resolveUnit? word).isSome = true

/-- Of the parts of a specific rate only the variable has to do with the hint. -/
lemma specific?_eq_some_iff {part : String} {hint : Option String} {t : Term} :
    specific? part hint = some t ↔ amountOf? part = some t.amount ∧
      ∃ unit, unitOf? part = some unit ∧ perOf? hint unit = some t.per := by
  unfold specific? amountOf? unitOf?
  cases readEach part.toList with
  | some read =>
    obtain ⟨price, word⟩ := read
    simp only [Option.bind_eq_bind, Option.bind_eq_some_iff, Option.some.injEq]
    constructor
    · rintro ⟨amount, ha, per, hp, rfl⟩
      exact ⟨ha, _, rfl, hp⟩
    · rintro ⟨ha, _, rfl, hp⟩
      exact ⟨_, ha, _, hp, rfl⟩
  | none =>
    have hper (p : PerUnit) : p.variable? hint = perOf? hint p.unit := by
      unfold PerUnit.variable? perOf?
      cases p.unit <;> rfl
    simp only [PerUnit.term?, hper, Option.bind_eq_bind, Option.bind_eq_some_iff,
      Option.map_eq_some_iff, Option.some.injEq]
    constructor
    · rintro ⟨p, hp, dollars, hd, per, hper, amount, ha, rfl⟩
      exact ⟨⟨p, hp, dollars, hd, ha⟩, _, ⟨p, hp, rfl⟩, hper⟩
    · rintro ⟨⟨p, hp, dollars, hd, ha⟩, _, ⟨p', hp', rfl⟩, hper⟩
      cases hp.symm.trans hp'
      exact ⟨p, hp, dollars, hd, _, hper, _, ha, rfl⟩

/-! ### Terms -/

/-- A term without and with a hint. -/
structure Term.Filled (hint : Option String) (part : String) (t t' : Term) : Prop where
  amount : t'.amount = t.amount
  word : ¬BareNumber part → t'.per = t.per
  number : BareNumber part → t.per = .quantity ∧ t'.per = numericUnit hint

lemma resolveWord?_of_resolveUnit? {word : String} {v : Variable}
    (h : resolveUnit? word = some v) (hint : Option String) : resolveWord? word hint = some v := by
  unfold resolveWord?
  rw [h]
  rfl

lemma resolveWord?_none (word : String) : resolveWord? word none = resolveUnit? word := by
  unfold resolveWord? resolveHint?
  cases resolveUnit? word <;> rfl

/-- A specific rate that is known without a hint is known with one. -/
lemma exists_filled_of_specific? {part : String} {t : Term} (h : specific? part none = some t)
    (hint : Option String) : ∃ t', specific? part hint = some t' ∧ t.Filled hint part t' := by
  obtain ⟨ha, unit, hu, hper⟩ := specific?_eq_some_iff.mp h
  cases unit with
  | some word =>
    have hword : resolveUnit? word = some t.per := (resolveWord?_none word).symm.trans hper
    have hbare : ¬BareNumber part := fun hb => by cases hu.symm.trans hb
    exact ⟨t, specific?_eq_some_iff.mpr ⟨ha, _, hu, resolveWord?_of_resolveUnit? hword hint⟩,
      ⟨rfl, fun _ => rfl, fun hb => absurd hb hbare⟩⟩
  | none =>
    have hquantity : t.per = .quantity := (Option.some.inj hper).symm
    exact ⟨⟨numericUnit hint, t.amount⟩, specific?_eq_some_iff.mpr ⟨ha, _, hu, rfl⟩,
      ⟨rfl, fun hb => absurd hu hb, fun _ => ⟨hquantity, rfl⟩⟩⟩

/-- A specific rate whose unit is a known word does not depend on the hint. -/
lemma specific?_of_knownUnit {part : String} (h : KnownUnit part) (hint : Option String) :
    specific? part hint = specific? part none := by
  refine Option.ext fun t => ?_
  rw [specific?_eq_some_iff, specific?_eq_some_iff]
  refine and_congr_right fun _ => exists_congr fun unit => and_congr_right fun hu => ?_
  obtain ⟨word, rfl, hword⟩ := h unit hu
  obtain ⟨v, hv⟩ := Option.isSome_iff_exists.mp hword
  unfold perOf?
  dsimp only
  rw [resolveWord?_of_resolveUnit? hv, resolveWord?_of_resolveUnit? hv]

/-! ### Shapes -/

/-- The parts of a text that are no percentages: those between its plus signs, or all of it. -/
def specificParts (text : String) : List String :=
  if '+' ∈ text.toList then
    ((addends text).filter fun part => (percentComponent? part).isNone).map String.ofList
  else [text]

/-- A rate without and with a hint: by the same rule, with the same rates and bounds, and with a
term for each specific part, in the order of the text. -/
inductive Shape.Filled (hint : Option String) (text : String) : Shape → Shape → Prop where
  | free : Filled hint text .free .free
  | adValorem (rate : Float) : Filled hint text (.adValorem rate) (.adValorem rate)
  | compound (rate : Float) {f f' : String → Term}
      (terms : ∀ part ∈ specificParts text, (f part).Filled hint part (f' part)) :
      Filled hint text (.compound rate ((specificParts text).map f))
        (.compound rate ((specificParts text).map f'))
  | specific {t t' : Term} (term : t.Filled hint text t') :
      Filled hint text (.specific t) (.specific t')
  | range (low high : Float) : Filled hint text (.range low high) (.range low high)

lemma specificParts_of_sum {text : String} {part : List Char} {before after : List (List Char)}
    {rate : Float} (hplus : '+' ∈ text.toList) (hparts : addends text = before ++ part :: after)
    (hpart : percentComponent? part = some rate)
    (hother : ∀ other ∈ before ++ after, percentComponent? other = none) :
    specificParts text = (before ++ after).map String.ofList := by
  have hkeep {l : List (List Char)} (h : ∀ other ∈ l, percentComponent? other = none) :
      l.filter (fun part => (percentComponent? part).isNone) = l :=
    List.filter_eq_self.mpr fun other hmem => by rw [h other hmem]; rfl
  obtain ⟨hbefore, hafter⟩ := List.forall_mem_append.mp hother
  unfold specificParts
  rw [if_pos hplus, hparts, List.filter_append, List.filter_cons_of_neg (by simp [hpart]),
    hkeep hbefore, hkeep hafter]

lemma exists_terms_of_compound? {text : String} {hint : Option String} {s : Shape}
    (h : compound? text hint = some s) : ∃ rate f, s = .compound rate ((specificParts text).map f) ∧
      ∀ part ∈ specificParts text, specific? part hint = some (f part) := by
  obtain ⟨rate, terms, rfl, -, -, before, part, after, hparts, hpart, hother, hterms⟩ :=
    compound?_eq_some_iff_isSum.mp h
  have hspecific := specificParts_of_sum (told_of_compound? h).1 hparts hpart hother
  have hmap : (specificParts text).map (specific? · hint) = terms.map some := by
    rw [hspecific, List.map_map]
    exact hterms
  have hsome : ∀ part ∈ specificParts text, ∃ t, specific? part hint = some t :=
    fun part hmem => Option.isSome_iff_exists.mp (isSome_of_map_eq hmap part hmem)
  refine ⟨rate, fun part => (specific? part hint).getD ⟨.quantity, 0⟩, ?_, fun part hmem => ?_⟩
  · have hterms : (specificParts text).map (specific? · hint) =
        ((specificParts text).map fun part =>
          (specific? part hint).getD ⟨.quantity, 0⟩).map some := by
      rw [List.map_map]
      refine List.map_congr_left fun part hmem => ?_
      obtain ⟨t, ht⟩ := hsome part hmem
      simp [ht]
    rw [hmap] at hterms
    rw [List.map_injective_iff.mpr (Option.some_injective Term) hterms]
  · obtain ⟨t, ht⟩ := hsome part hmem
    simp [ht]

lemma IsSum.of_terms {text : String} {hint hint' : Option String} {rate : Float} {terms : List Term}
    (h : IsSum text hint rate terms) (hplus : '+' ∈ text.toList) {f : String → Term}
    (hf : ∀ part ∈ specificParts text, specific? part hint' = some (f part)) :
    IsSum text hint' rate ((specificParts text).map f) := by
  obtain ⟨hname, hlength, before, part, after, hparts, hpart, hother, -⟩ := h
  refine ⟨hname, hlength, before, part, after, hparts, hpart, hother, ?_⟩
  rw [specificParts_of_sum hplus hparts hpart hother] at hf ⊢
  rw [List.map_map, List.map_map]
  exact List.map_congr_left fun other hmem => hf _ (List.mem_map_of_mem hmem)

lemma exists_filled_of_compound? {text : String} {s : Shape} (h : compound? text none = some s)
    (hint : Option String) : ∃ s', compound? text hint = some s' ∧ s.Filled hint text s' := by
  obtain ⟨rate, f, rfl, hf⟩ := exists_terms_of_compound? h
  obtain ⟨_, _, heq, hsum⟩ := compound?_eq_some_iff_isSum.mp h
  cases heq
  have hterm : ∀ part, ∃ t', part ∈ specificParts text →
      specific? part hint = some t' ∧ (f part).Filled hint part t' := by
    intro part
    by_cases hmem : part ∈ specificParts text
    · obtain ⟨t', ht'⟩ := exists_filled_of_specific? (hf part hmem) hint
      exact ⟨t', fun _ => ht'⟩
    · exact ⟨f part, fun h => absurd h hmem⟩
  choose f' hf' using hterm
  have hsum' := hsum.of_terms (told_of_compound? h).1 fun part hmem => (hf' part hmem).1
  exact ⟨_, compound?_eq_some_iff_isSum.mpr ⟨rate, _, rfl, hsum'⟩,
    .compound rate fun part hmem => (hf' part hmem).2⟩

/-- A rule that knows a text without a hint knows it with one. -/
lemma exists_filled_of_shape? {r : Rule} {text : String} {s : Shape}
    (h : r.shape? text none = some s) (hint : Option String) :
    ∃ s', r.shape? text hint = some s' ∧ s.Filled hint text s' := by
  cases r with
  | explicit =>
    obtain ⟨rate, -, rfl⟩ := Option.map_eq_some_iff.mp h
    exact ⟨_, h, .adValorem rate⟩
  | simple =>
    obtain ⟨rate, -, rfl⟩ := Option.map_eq_some_iff.mp h
    exact ⟨_, h, .adValorem rate⟩
  | compound => exact exists_filled_of_compound? h hint
  | specific =>
    obtain ⟨t, ht, rfl⟩ := Option.map_eq_some_iff.mp h
    obtain ⟨t', ht', hfilled⟩ := exists_filled_of_specific? ht hint
    exact ⟨_, Option.map_eq_some_iff.mpr ⟨t', ht', rfl⟩, .specific hfilled⟩
  | range =>
    obtain ⟨low, high, rfl⟩ : ∃ low high, s = .range low high := by
      simp only [Rule.shape?, range?, Option.bind_eq_bind, Option.bind_eq_some_iff] at h
      obtain ⟨⟨a, rest⟩, -, rest', -, ⟨b, rest''⟩, -, h⟩ := h
      dsimp only at h
      split_ifs at h
      simp only [Option.bind_eq_some_iff, Option.some.injEq] at h
      obtain ⟨low, -, high, -, rfl⟩ := h
      split_ifs
      · exact ⟨high, low, rfl⟩
      · exact ⟨low, high, rfl⟩
    exact ⟨_, h, .range low high⟩

/-! ### Known words -/

lemma component?_of_knownUnit {text : String} (hplus : '+' ∈ text.toList)
    (h : ∀ part ∈ specificParts text, KnownUnit part) (hint : Option String) {part : List Char}
    (hmem : part ∈ addends text) : component? hint part = component? none part := by
  cases hp : percentComponent? part with
  | some rate =>
    unfold component?
    rw [hp]
  | none =>
    have hpart : String.ofList part ∈ specificParts text := by
      unfold specificParts
      rw [if_pos hplus]
      exact List.mem_map_of_mem (List.mem_filter.mpr ⟨hmem, by rw [hp]; rfl⟩)
    rw [component?_of_not_percent hp, component?_of_not_percent hp,
      specific?_of_knownUnit (h _ hpart)]

/-- A rule makes the same of a text with any hint, where its units are known words. -/
lemma shape?_of_knownUnits {text : String} (h : ∀ part ∈ specificParts text, KnownUnit part)
    (hint : Option String) (r : Rule) : r.shape? text hint = r.shape? text none := by
  by_cases hplus : '+' ∈ text.toList
  · have hspecific (hint : Option String) : specific? text hint = none := by
      cases ht : specific? text hint with
      | none => rfl
      | some t =>
        obtain ⟨numeral, htold⟩ := told_of_specific? ht
        exact absurd hplus htold.plus
    have hcomponent : ∀ part ∈ addends text, component? hint part = component? none part :=
      fun part hmem => component?_of_knownUnit hplus h hint hmem
    cases r with
    | explicit | simple | range => rfl
    | specific => rw [Rule.shape?, Rule.shape?, hspecific, hspecific]
    | compound =>
      refine Option.ext fun s => ?_
      rw [Rule.shape?, Rule.shape?, compound?_eq_some_iff, compound?_eq_some_iff]
      have hterms : (addends text).filterMap (partTerm? hint) =
          (addends text).filterMap (partTerm? none) :=
        List.filterMap_congr fun part hmem => by
          unfold partTerm?
          rw [hcomponent part hmem]
      rw [hterms]
      refine and_congr_right fun _ => and_congr_right fun _ => and_congr_left fun _ => ?_
      exact forall₂_congr fun part hmem => by rw [hcomponent part hmem]
  · have hcompound (hint : Option String) : compound? text hint = none := by
      cases hs : compound? text hint with
      | none => rfl
      | some s => exact absurd (told_of_compound? hs).1 hplus
    have hknown : KnownUnit text := by
      refine h text ?_
      unfold specificParts
      rw [if_neg hplus]
      exact List.mem_singleton_self text
    cases r with
    | explicit | simple | range => rfl
    | specific => rw [Rule.shape?, Rule.shape?, specific?_of_knownUnit hknown]
    | compound => rw [Rule.shape?, Rule.shape?, hcompound, hcompound]

/-! ### The rate -/

structure FillsGaps (text : String) (hint : Option String) : Prop where
  /-- What is known without the hint is known with it, but for the variables of bare numbers. -/
  filled : ∀ s, parse? text none = some s → ∃ s', parse? text hint = some s' ∧
    s.Filled hint text s'
  /-- Where every unit is a known word, the hint says nothing. -/
  words : (∀ part ∈ specificParts text, KnownUnit part) → parse? text hint = parse? text none

/-- **Hints only fill gaps**, whatever they say. -/
theorem hint_fills_gaps (text : String) (hint : Option String) : FillsGaps text hint := by
  constructor
  case filled =>
    intro s hs
    cases hfree : isFree text with
    | true =>
      have hparse (hint : Option String) : parse? text hint = some .free := by
        rw [parse?_eq, hfree]
        rfl
      cases (hparse none).symm.trans hs
      exact ⟨.free, hparse hint, .free⟩
    | false =>
      have hne : text ≠ "0%" := by
        rintro rfl
        exact absurd hfree (by decide)
      rw [parse?_eq, hfree] at hs
      obtain ⟨r, -, hr⟩ := List.exists_of_findSome?_eq_some hs
      obtain ⟨s', hs', hfilled⟩ := exists_filled_of_shape? hr hint
      exact ⟨s', parse?_of_shape? hs' hne, hfilled⟩
  case words =>
    intro h
    have hrules : (fun r : Rule => r.shape? text hint) = fun r => r.shape? text none :=
      funext (shape?_of_knownUnits h hint)
    rw [parse?_eq, parse?_eq, hrules]

/-- A sum with a word that is known and a bare number. -/
theorem hint_fills_gaps_thousand :
    (parse? "5% + 25¢/kg + $1.34/1000" none).isSome = true ∧
      specificParts "5% + 25¢/kg + $1.34/1000" = ["25¢/kg", "$1.34/1000"] ∧
      unitOf? "25¢/kg" = some (some "kg") ∧ BareNumber "$1.34/1000" ∧
      numericUnit (some "kg") = .weight ∧
      FillsGaps "5% + 25¢/kg + $1.34/1000" (some "kg") := by
  have hbare : unitOf? "$1.34/1000" = some none := by decide
  exact ⟨by decide +kernel, by decide +kernel, by decide, hbare, by decide,
    hint_fills_gaps _ (some "kg")⟩

end Tariff.Rate
