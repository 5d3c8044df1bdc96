import Tariff.Proofs.Formula.Rounded
import Tariff.Proofs.Rate.Percentages
import Tariff.Proofs.Rate.Specific

/-!
Rates without noise. A numeral of an ordinary size is read, and divided by a hundred, with an error
too small to be written, so the formula has the decimal expansion of what the numeral says.
-/

namespace Tariff.Rate

open Tariff.Text Tariff.Decimal

/-- The number that a numeral says. -/
def exactValue (n : List Char) : ℚ :=
  natOfDigits (n.filter isAsciiDigit) / 10 ^ (decimals n).length

/-! ### A hundredth of a numeral -/

lemma normal_hundred : Normal 100 (100 <<< 46) (-46) := ⟨⟨by decide, by rfl⟩, by decide⟩

lemma exists_normal_hundredth {n k : ℕ} (hn : 0 < n) (hlt : n < 2 ^ 53) (hk : k < 23) :
    ∃ m e, Normal (ofScaled n (-k) / 100) m e ∧ Within 3 (m * 2 ^ e) (n / 10 ^ k / 100) := by
  obtain ⟨m, e, hnormal, hlo, hhi, hwithin⟩ := exists_normal_ofScaled hn hlt hk
  obtain ⟨m', e', hnormal', -, -, hwithin'⟩ :=
    exists_normal_div hnormal normal_hundred (by omega) (by omega)
  have hhundred : (((100 <<< 46 : ℕ) : ℚ) * 2 ^ (-46 : ℤ)) = 100 := by
    rw [Nat.shiftLeft_eq]
    norm_num
  rw [hhundred] at hwithin'
  exact ⟨m', e', hnormal', hwithin'.trans (hwithin.div (by norm_num))⟩

lemma zero_spec : ∀ k < 9, (ofScaled 0 (-(k : ℕ))).isFinite = true ∧
    Formula.literal (ofScaled 0 (-(k : ℕ)) / 100) = "0" := by
  decide +kernel

/-- **A hundredth of a decimal is written as it is**, below ten thousand and with up to ten digits
behind the point. -/
lemma literal_hundredth {n k : ℕ} (hk : k ≤ 8) (hlt : (n / 10 ^ k : ℚ) < 10 ^ 6) :
    (ofScaled n (-k)).isFinite = true ∧
      IsExpansion (n / 10 ^ k / 100) (Formula.literal (ofScaled n (-k) / 100)).toList := by
  rcases Nat.eq_zero_or_pos n with rfl | hpos
  · obtain ⟨hfinite, hliteral⟩ := zero_spec k (Nat.lt_succ_of_le hk)
    rw [hliteral, Nat.cast_zero, zero_div, zero_div]
    exact ⟨hfinite, ['0'], [], expansion_zero, rfl⟩
  · -- counted in steps of the last of ten digits
    have hscale : n * 10 ^ (8 - k) < 10 ^ 14 := by
      rw [div_lt_iff₀ (by positivity)] at hlt
      have hlt : n < 10 ^ 6 * 10 ^ k := by exact_mod_cast hlt
      calc n * 10 ^ (8 - k) < 10 ^ 6 * 10 ^ k * 10 ^ (8 - k) :=
            Nat.mul_lt_mul_of_pos_right hlt (Nat.pow_pos (by decide))
        _ = 10 ^ 6 * 10 ^ (k + (8 - k)) := by rw [Nat.mul_assoc, Nat.pow_add]
        _ = 10 ^ 14 := by rw [Nat.add_sub_cancel' hk]; rfl
    have hsteps : (n / 10 ^ k / 100 : ℚ) = (n * 10 ^ (8 - k) : ℕ) / 10 ^ 10 := by
      have hten : (10 : ℚ) ^ 10 = 10 ^ k * 10 ^ (8 - k) * 100 := by
        rw [← pow_add, Nat.add_sub_cancel' hk]
        norm_num
      rw [hten]
      push_cast
      field_simp
    have hle : n ≤ n * 10 ^ (8 - k) := Nat.le_mul_of_pos_right n (Nat.pow_pos (by decide))
    obtain ⟨m₁, e₁, hnormal₁, -⟩ := exists_normal_ofScaled (k := k) hpos (by omega) (by omega)
    obtain ⟨m, e, hnormal, hwithin⟩ :=
      exists_normal_hundredth (k := k) hpos (by omega) (by omega)
    rw [hsteps] at hwithin ⊢
    exact ⟨isFinite_of_normal hnormal₁,
      Formula.isExpansion_literal hnormal hwithin (by omega) (by omega)⟩

/-! ### In normal form -/

/-- What may stand behind a numeral in a text that is its own normal form. -/
structure Tail (t : List Char) : Prop where
  lower : t.map Char.toLower = t
  plain : ∀ c ∈ t, Plain c
  head : ∀ x : Abbreviation, t.head? ≠ some x.head
  tidy : tidyTail (spellOut t) = t
  ne_nil : t ≠ []

lemma tail_percent : Tail ['%'] where
  lower := by decide
  plain := plain_of_all (by decide +kernel)
  head := fun x => by cases x <;> decide
  tidy := by decide
  ne_nil := by decide

lemma tail_cents : Tail "¢/kg".toList where
  lower := by decide
  plain := plain_of_all (by decide +kernel)
  head := fun x => by cases x <;> decide
  tidy := by decide +kernel
  ne_nil := by decide

lemma Tail.normalize_eq {n t : List Char} (ht : Tail t) (hn : isNumeral n = true) :
    normalize (String.ofList (n ++ t)) = String.ofList (n ++ t) := by
  have hlower : (String.ofList (n ++ t)).toList.map Char.toLower = [] ++ ((n ++ t) ++ []) := by
    rw [String.toList_ofList, List.map_append, map_toLower_of_isNumeral hn, ht.lower,
      List.append_nil]
    rfl
  have hplain : ∀ w ∈ [n ++ t], w ≠ [] ∧ ∀ c ∈ w, Plain c := by
    intro w hw
    rw [List.mem_singleton.mp hw]
    refine ⟨List.append_ne_nil_of_right_ne_nil n ht.ne_nil,
      List.forall_mem_append.mpr ⟨fun c hc => ?_, ht.plain⟩⟩
    exact plain_of_isNumeralChar (isNumeralChar_of_isNumeral hn c hc)
  have heven : even (String.ofList (n ++ t)).toList = [] ++ (n ++ t) := by
    rw [even_of_spread (List.forall_mem_nil _) (.last (List.forall_mem_nil _)) hlower hplain,
      List.intercalate_singleton]
    rfl
  have hend : tidyTail (spellOut t) ≠ [] := by
    rw [ht.tidy]
    exact ht.ne_nil
  rw [normalize_eq_of_numeral hn (fun x => by cases x <;> rfl) rfl ht.head hend heven, ht.tidy]
  rfl

lemma compile_of_parse? {n t : List Char} (hn : isNumeral n = true) (ht : Tail t)
    {hint : Option String} {s : Shape} (hs : parse? (String.ofList (n ++ t)) hint = some s)
    (hfinite : ∀ p ∈ s.terms, p.amount.isFinite = true) :
    compile (String.ofList (n ++ t)) hint = .compiled s.compiled := by
  obtain ⟨c, cs, hcons, hc⟩ := exists_cons_of_isNumeral hn
  have hblank : (String.ofList (n ++ t)).toList.all isBlank = false := by
    rw [String.toList_ofList, hcons, List.cons_append, List.all_cons, isBlank_of_isNumeralChar hc,
      Bool.false_and]
  unfold compile
  dsimp only
  rw [hblank, ht.normalize_eq hn, hs]
  exact Shape.compile_of_parse? hs hfinite

lemma parse?_cents {n : List Char} (hn : isNumeral n = true) {x : Float}
    (hx : numeralValue? n = some x) (hint : Option String) :
    parse? (String.ofList (n ++ "¢/kg".toList)) hint = some (.specific ⟨.weight, x / 100⟩) := by
  have hprice : PriceText n true (n ++ ([] ++ "¢".toList)) :=
    .marked (List.forall_mem_nil _) (by decide)
  have hslash : SeparatorText ['/'] :=
    .slash (b := []) (List.forall_mem_nil _) (List.forall_mem_nil _)
  have hunit : UnitText "kg".toList := .one ⟨by decide, forall_mem_of_all (by decide)⟩
  obtain ⟨count, divisor, hdivides, hread⟩ := hunit.exists_readUnits .missing .missing ⟨n, true⟩
  have htext : n ++ "¢/kg".toList =
      (n ++ ([] ++ "¢".toList)) ++ (['/'] ++ ([] ++ ("kg".toList ++ []))) := by simp
  have hvariable : PerUnit.variable? ⟨⟨n, true⟩, count, some (String.ofList "kg".toList), divisor⟩
      hint = some .weight := by
    have hkg : resolveUnit? (String.ofList "kg".toList) = some .weight := by decide +kernel
    unfold PerUnit.variable? resolveWord?
    dsimp only
    rw [hkg]
    rfl
  refine parse?_of_shape? (r := .specific) ?_ fun h => ?_
  · unfold Rule.shape?
    dsimp only
    rw [htext, specific?_of_readUnits hprice hn hslash (by decide) hread,
      term?_eq hx hvariable hdivides]
    rfl
  · have hmem : 'g' ∈ (String.ofList (n ++ "¢/kg".toList)).toList := by simp
    rw [h] at hmem
    exact absurd hmem (by decide)

/-- **No noise in rates.** A numeral below a million with up to eight digits behind the point is
compiled, as a percentage or as cents for a kilogram, to a formula with the one decimal expansion of
a hundredth of it, whatever the hint says; but the percentage of the numeral `0` is the rate of what
is free. -/
theorem compile_eq_expansion {n : List Char} (hn : isNumeral n = true)
    (hascii : ∀ c ∈ n, c.toNat < 128) (hplaces : (decimals n).length ≤ 8)
    (hlt : exactValue n < 10 ^ 6) :
    ∃ s : String, (∀ t : String, IsExpansion (exactValue n / 100) t.toList ↔ t = s) ∧
      ∀ hint, (n ≠ ['0'] → compile (String.ofList (n ++ ['%'])) hint =
          .compiled ⟨"value * " ++ s, [.value], 1, .pattern⟩) ∧
        compile (String.ofList (n ++ "¢/kg".toList)) hint =
          .compiled ⟨"weight * " ++ s, [.weight], 0.9, .pattern⟩ := by
  obtain ⟨hfinite, hexpansion⟩ :=
    literal_hundredth (n := natOfDigits (n.filter isAsciiDigit)) hplaces hlt
  have hx := numeralValue?_of_isFinite hn hascii hfinite
  refine ⟨Formula.literal (decimalValue n / 100), fun t => ⟨fun ht => ?_, ?_⟩,
    fun hint => ⟨fun h0 => ?_, ?_⟩⟩
  · exact String.toList_inj.mp (ht.unique hexpansion)
  · rintro rfl
    exact hexpansion
  · have hsign : ⟨"", "%", []⟩ ∈ percentForms := by decide
    have hending : PercentForm.ending ⟨"", "%", []⟩ = ['%'] := by decide
    have hparse := PercentForm.parse?_eq hsign hn h0 hx hint
    rw [hending, String.toList_empty, List.nil_append] at hparse
    exact compile_of_parse? hn tail_percent hparse (by simp [Shape.terms])
  · refine compile_of_parse? hn tail_cents (parse?_cents hn hx hint) fun p hp => ?_
    rw [List.mem_singleton.mp hp]
    exact isFinite_div hfinite atLeastTwo_hundred

theorem compile_eq_expansion_longest :
    isNumeral "999,999.99999999".toList = true ∧ (∀ c ∈ "999,999.99999999".toList, c.toNat < 128) ∧
      (decimals "999,999.99999999".toList).length ≤ 8 ∧
      exactValue "999,999.99999999".toList < 10 ^ 6 ∧
      compile "999,999.99999999%" none =
        .compiled ⟨"value * 9999.9999999999", [.value], 1, .pattern⟩ ∧
      compile "999,999.99999999¢/kg" (some "doz") =
        .compiled ⟨"weight * 9999.9999999999", [.weight], 0.9, .pattern⟩ := by
  have hn : isNumeral "999,999.99999999".toList = true := by decide
  have hascii : ∀ c ∈ "999,999.99999999".toList, c.toNat < 128 := forall_mem_of_all (by decide)
  have hplaces : (decimals "999,999.99999999".toList).length = 8 := by decide
  have hdigits : natOfDigits ("999,999.99999999".toList.filter isAsciiDigit) = 99999999999999 := by
    decide
  have hvalue : exactValue "999,999.99999999".toList = 99999999999999 / 10 ^ 8 := by
    unfold exactValue
    rw [hdigits, hplaces]
    rfl
  have hlt : exactValue "999,999.99999999".toList < 10 ^ 6 := by
    rw [hvalue]
    norm_num
  have hexpansion : IsExpansion (exactValue "999,999.99999999".toList / 100)
      "9999.9999999999".toList := by
    have hdigits : AllDigits "9999".toList ∧ AllDigits "9999999999".toList :=
      ⟨forall_mem_of_all (by decide), forall_mem_of_all (by decide)⟩
    refine ⟨"9999".toList, "9999999999".toList,
      ⟨hdigits, by decide, by decide, by decide, ?_⟩, by decide⟩
    have hexpanded : natOfDigits ("9999".toList ++ "9999999999".toList) = 99999999999999 := by
      decide
    have hlen : "9999999999".toList.length = 10 := by decide
    rw [hexpanded, hlen, hvalue]
    norm_num
  obtain ⟨s, hs, hcompile⟩ := compile_eq_expansion hn hascii hplaces.le hlt
  obtain rfl := (hs _).mp hexpansion
  exact ⟨hn, hascii, hplaces.le, hlt, (hcompile none).1 (by decide), (hcompile (some "doz")).2⟩

end Tariff.Rate
