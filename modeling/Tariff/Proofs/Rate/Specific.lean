import Tariff.Proofs.Rate.Numerals
import Tariff.Proofs.Rate.Units

/-!
Specific rates as they are written. An amount in front of a separator is never taken for an amount
for each piece, and the first way to read it goes through to the end, so the rate is the one that
was written: the amount, divided by the count and by the second divisor where they are given.
-/

namespace Tariff.Rate

open Tariff.Text Tariff.Decimal

lemma readEach_of_separator {a p s : List Char} {cents : Bool} (hp : PriceText a cents p)
    (ha : isNumeral a = true) (hs : SeparatorText s) (t : List Char) :
    readEach (p ++ (s ++ t)) = none := by
  obtain ⟨last, others, hprices, hothers⟩ := hp.exists_prices ha (hs.follows t)
  have hletters : ∀ w ∈ eachWords, w.toList.all isUnitStart = true := by decide
  unfold readEach
  rw [hprices, List.findSome?_eq_none_iff]
  rintro ⟨price, last', rest⟩ hq
  obtain ⟨x, hx⟩ : ∃ x, rest = x ++ (s ++ t) := by
    rcases List.mem_cons.mp hq with hq | hq
    · cases hq
      exact ⟨[], rfl⟩
    · exact hothers _ hq
  obtain ⟨c, hc, hletter⟩ := hs.exists_mem_trimStart x t
  refine if_neg fun hmem => ?_
  have hall := hletters _ (List.contains_iff_mem.mp hmem)
  rw [String.toList_ofList, hx, List.all_eq_true] at hall
  rw [hall c hc] at hletter
  cases hletter

/-- Behind an amount and a separator, what the units are read as is the rate. -/
lemma specific?_of_readUnits {a p s t : List Char} {cents : Bool} (hp : PriceText a cents p)
    (ha : isNumeral a = true) (hs : SeparatorText s) (ht : t.head?.any isBlank = false)
    {q : PerUnit} (hq : readUnits ⟨a, cents⟩ t = some q) (hint : Option String) :
    specific? (String.ofList (p ++ (s ++ t))) hint = q.term? hint := by
  obtain ⟨last, others, hprices, -⟩ := hp.exists_prices ha (hs.follows t)
  have hread : readPerUnit (p ++ (s ++ t)) = some q := by
    unfold readPerUnit
    rw [hprices, List.findSome?_cons]
    dsimp only
    rw [hs.separator_eq ht, Option.bind_eq_bind, Option.bind_some, hq]
  unfold specific?
  rw [String.toList_ofList, readEach_of_separator hp ha hs t, hread]
  rfl

lemma dollars?_eq {a : List Char} {x : Float} (hx : numeralValue? a = some x) (cents : Bool) :
    (⟨a, cents⟩ : Price).dollars? = some (inDollars cents x) := by
  unfold Price.dollars?
  rw [hx]
  rfl

lemma term?_eq {a : List Char} {x : Float} {cents : Bool} (hx : numeralValue? a = some x)
    {count unit n} {hint : Option String} {v : Variable} {ys : List Float}
    (hv : PerUnit.variable? ⟨⟨a, cents⟩, count, unit, n⟩ hint = some v)
    (hn : List.Forall₂ Divides (count.toList ++ n.toList) ys) :
    PerUnit.term? ⟨⟨a, cents⟩, count, unit, n⟩ hint =
      some ⟨v, ys.foldl (· / ·) (inDollars cents x)⟩ := by
  unfold PerUnit.term?
  rw [dollars?_eq hx, hv]
  simp only [Option.bind_eq_bind, Option.bind_some]
  rw [foldlM_divide? hn]
  rfl

lemma eachWords_spec : ∀ w ∈ eachWords, w.toList.head?.any isUnitStart = true ∧
    w.toList.all isUnitChar = true ∧ w.toList.head?.any isMarkStart = false ∧
    resolveUnit? w = some .quantity := by
  decide +kernel

/-- An amount in front of a word for each piece is an amount for a piece. -/
lemma specific?_each {a p b : List Char} {x : Float} {cents : Bool} (hp : PriceText a cents p)
    (ha : isNumeral a = true) (hx : numeralValue? a = some x) {w : String} (hw : w ∈ eachWords)
    (hne : b ≠ []) (hb : Blanks b) (hint : Option String) :
    specific? (String.ofList (p ++ (b ++ w.toList))) hint =
      some ⟨.quantity, inDollars cents x⟩ := by
  obtain ⟨hstart, -, hmark, hunit⟩ := eachWords_spec w hw
  have htrim : trimStart (b ++ w.toList) = w.toList :=
    trimStart_append hb (any_head?_of_imp (fun _ hc => (classes_of_isUnitStart hc).2.1) hstart)
  have hfollows : Follows (b ++ w.toList) := by
    refine ⟨?_, by rwa [htrim]⟩
    obtain ⟨c, cs, rfl⟩ := List.exists_cons_of_ne_nil hne
    exact Bool.or_eq_true_iff.mpr (.inl (hb c List.mem_cons_self))
  obtain ⟨last, others, hprices, -⟩ := hp.exists_prices ha hfollows
  have hread : readEach (p ++ (b ++ w.toList)) = some (⟨a, cents⟩, w) := by
    unfold readEach
    rw [hprices, List.findSome?_cons]
    dsimp only
    rw [htrim, String.ofList_toList, if_pos (List.contains_iff_mem.mpr hw)]
  unfold specific? resolveWord?
  rw [String.toList_ofList, hread]
  dsimp only
  rw [dollars?_eq hx, hunit]
  rfl

/-- **A specific rate is what was written.** However the amount is spelled, a unit with a count and
a second divisor, each of which may be missing, is read as the variable of the unit and the amount
divided by both. A count without a unit stands for the variable that the hint says, else for the
quantity. And an amount with a word for each piece is read as the amount with a slash and the word
is. -/
theorem specific?_of_spelling {a p : List Char} {cents : Bool} (ha : isNumeral a = true)
    (hascii : ∀ c ∈ a, c.toNat < 128) (hfin : (decimalValue a).isFinite = true)
    (hp : PriceText a cents p) (hint : Option String) :
    (∀ s k ks u v d ds, SeparatorText s → CountText k ks → UnitText u →
      resolveUnit? (String.ofList u) = some v → DivisorText d ds →
      specific? (String.ofList (p ++ (s ++ (k ++ (u ++ d))))) hint =
        some ⟨v, (ks ++ ds).foldl (· / ·) (inDollars cents (decimalValue a))⟩) ∧
    (∀ w ∈ eachWords, ∀ b, b ≠ [] → Blanks b →
      specific? (String.ofList (p ++ (b ++ w.toList))) hint =
        specific? (String.ofList (p ++ '/' :: w.toList)) hint) ∧
    (∀ s k y d ds, SeparatorText s → Divides k y → DivisorText d ds →
      specific? (String.ofList (p ++ (s ++ (k ++ d)))) hint =
        some ⟨(resolveHint? hint).getD .quantity,
          (y :: ds).foldl (· / ·) (inDollars cents (decimalValue a))⟩) := by
  have hx := numeralValue?_of_isFinite ha hascii hfin
  have hunit (s k : List Char) (ks : List Float) (u : List Char) (v : Variable) (d : List Char)
      (ds : List Float) (hs : SeparatorText s) (hk : CountText k ks) (hu : UnitText u)
      (hv : resolveUnit? (String.ofList u) = some v) (hd : DivisorText d ds) :
      specific? (String.ofList (p ++ (s ++ (k ++ (u ++ d))))) hint =
        some ⟨v, (ks ++ ds).foldl (· / ·) (inDollars cents (decimalValue a))⟩ := by
    obtain ⟨count, n, hn, hread⟩ := hu.exists_readUnits hk hd ⟨a, cents⟩
    have hink : (k ++ (u ++ d)).head?.any isBlank = false := by
      cases hk with
      | missing => exact any_head?_of_imp (fun _ hc => (classes_of_isUnitStart hc).2.1) (hu.head? d)
      | given hk _ =>
        rw [List.append_assoc]
        exact any_head?_of_imp (fun _ => isBlank_of_isNumeralChar) (head?_of_isNumeral hk.numeral _)
    rw [specific?_of_readUnits hp ha hs hink hread]
    refine term?_eq hx ?_ hn
    unfold PerUnit.variable? resolveWord?
    dsimp only
    rw [hv]
    rfl
  refine ⟨hunit, fun w hw b hne hb => ?_, fun s k y d ds hs hk hd => ?_⟩
  · obtain ⟨hstart, hall, -, hv⟩ := eachWords_spec w hw
    have hslash : SeparatorText ['/'] :=
      .slash (b := []) (List.forall_mem_nil _) (List.forall_mem_nil _)
    have hu : UnitText w.toList := .one ⟨hstart, List.all_eq_true.mp hall⟩
    have h := hunit ['/'] [] [] w.toList .quantity [] [] hslash .missing hu
      (by rw [String.ofList_toList, hv]) .missing
    rw [List.append_nil] at h
    exact (specific?_each hp ha hx hw hne hb hint).trans h.symm
  · obtain ⟨n, hn, hread⟩ := hk.exists_readUnits hd ⟨a, cents⟩
    have hink : (k ++ d).head?.any isBlank = false :=
      any_head?_of_imp (fun _ => isBlank_of_isNumeralChar) (head?_of_isNumeral hk.numeral d)
    rw [specific?_of_readUnits hp ha hs hink hread]
    exact term?_eq hx rfl (.cons hk hn)

theorem specific?_of_spelling_cents :
    isNumeral "1,250".toList = true ∧ (∀ c ∈ "1,250".toList, c.toNat < 128) ∧
      (decimalValue "1,250".toList).isFinite = true ∧
      PriceText "1,250".toList true "1,250 cents".toList ∧
      specific? "1,250 cents per 2 dozen pair/4" none =
        some ⟨.quantity, ofScaled 1250 0 / 100 / ofScaled 2 0 / ofScaled 4 0⟩ := by
  have ha : isNumeral "1,250".toList = true := by decide
  have hascii : ∀ c ∈ "1,250".toList, c.toNat < 128 := forall_mem_of_all (by decide)
  have hfin : (decimalValue "1,250".toList).isFinite = true := by decide +kernel
  have hblank : Blanks [' '] := forall_mem_of_all (by decide)
  have hnil : Blanks [] := List.forall_mem_nil _
  have hp : PriceText "1,250".toList true "1,250 cents".toList :=
    .marked (b := [' ']) (m := "cents") hblank (by decide)
  have hper : SeparatorText " per ".toList :=
    .per (b := [' ']) (by decide) hblank (by decide) hblank
  have hslash : SeparatorText ['/'] := .slash (b := []) hnil hnil
  have htwo : Divides ['2'] (ofScaled 2 0) := ⟨by decide, by rfl, by decide +kernel⟩
  have hfour : Divides ['4'] (ofScaled 4 0) := ⟨by decide, by rfl, by decide +kernel⟩
  have hunit : UnitText "dozen pair".toList :=
    .two (v := "dozen".toList) (w := "pair".toList) ⟨by decide, forall_mem_of_all (by decide)⟩
      (by decide) ⟨by decide, forall_mem_of_all (by decide)⟩
  have htext : "1,250 cents per 2 dozen pair/4" = String.ofList ("1,250 cents".toList ++
      (" per ".toList ++ ((['2'] ++ [' ']) ++ ("dozen pair".toList ++ (['/'] ++ ['4']))))) := by
    decide
  refine ⟨ha, hascii, hfin, hp, ?_⟩
  rw [htext, (specific?_of_spelling ha hascii hfin hp none).1 _ _ _ _ .quantity _ _ hper
    (.given htwo hblank) hunit (by decide +kernel) (.given hslash hfour)]
  rfl

end Tariff.Rate
