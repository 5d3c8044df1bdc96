import Tariff.Adjustment.Heading
import Tariff.Proofs.Rate.Percentages

/-!
Headings that add a percentage. The search for what follows a plus knows no commas in a numeral, so
a heading adds the rate that the numeral is as a percentage, in every form, unless there is a comma
in it: then nothing is found, and the text as a whole is no rate either.
-/

namespace Tariff.Adjustment

open Tariff.Text Tariff.Decimal
open Tariff.Rate

/-! ### Forms -/

/-- What a text has in front of the percentage that it adds: words, and a plus. -/
structure Addition where
  lead : List String
  plus : String
  deriving DecidableEq

namespace Addition

def all : List Addition :=
  [[], ["the", "duty", "provided", "in", "the", "applicable", "subheading"]].flatMap
    fun lead => ["+", "plus"].map (⟨lead, ·⟩)

def before (a : Addition) : List Char := a.lead.flatMap (·.toList ++ [' '])

def front (a : Addition) : List Char := a.before ++ (a.plus.toList ++ [' '])

end Addition

/-! ### The search -/

lemma addedPercentage_starts (before : Option Char) (text : List Char)
    (f : List Char × List Char) (h : addedPercentage before text = some f) :
    text.head?.any (· == '+') = true ∨ before.any isWord = false ∧ "plus".toList <+: text := by
  obtain ⟨rest, hplus, -⟩ := Option.bind_eq_some_iff.mp h
  rw [Option.orElse_eq_orElse, Option.orElse_eq_or, Option.or_eq_some_iff, literal_eq_some_iff,
    wholeWord_eq_some_iff] at hplus
  rcases hplus with rfl | ⟨-, ⟨hb, rfl⟩, -⟩
  · exact .inl rfl
  · exact .inr ⟨(atBoundary_iff rfl).mp hb, rest, rfl⟩

section

variable {before : Option Char} {text rest w e : List Char}

/-- A row of digits, with a point and more behind it or without, is found with its percent mark. -/
lemma addedPercentage_of_mark {d mark : List Char}
    (hplus : (literal "+" text <|> wholeWord "plus" before text) = some rest)
    (hrest : trimStart rest = w ++ (point d ++ e)) (hw : ∀ c ∈ w, isDecimalDigit c = true)
    (hd : ∀ c ∈ d, isDecimalDigit c = true) (hne : w ++ d ≠ [])
    (he : e.head?.any isNumeralChar = false) (hmark : percentMark (trimStart e) = some mark) :
    addedPercentage before text = some (w ++ point d, mark) := by
  have hend : e.head?.any isDecimalDigit = false := by
    cases e with
    | nil => rfl
    | cons c cs =>
      have hc : isNumeralChar c = false := he
      unfold isNumeralChar at hc
      simp only [Bool.or_eq_false_iff] at hc
      exact hc.1.1
  have hpoint : (point d ++ e).head?.any isDecimalDigit = false := by
    cases d with
    | nil => exact hend
    | cons => rfl
  unfold addedPercentage
  rw [hplus]
  dsimp only [Option.bind_eq_bind, Option.bind_some]
  rw [hrest, takeWhile_append hw hpoint, List.drop_left]
  cases d with
  | nil =>
    have hw' : w.isEmpty = false := by simpa [point] using hne
    cases e with
    | nil => cases hmark
    | cons c cs =>
      have hc : c ≠ '.' := by
        rintro rfl
        cases he
      simp [point, hw', hc, hmark]
  | cons c cs =>
    have hfraction : ((c :: cs) ++ e).takeWhile isDecimalDigit = c :: cs :=
      takeWhile_append hd hend
    have hdrop : (point (c :: cs) ++ e).drop ('.' :: c :: cs).length = e := List.drop_left
    simp only [point, List.cons_append] at hfraction hdrop ⊢
    rw [hfraction]
    simp [hmark]

lemma addedPercentage_of_comma
    (hplus : (literal "+" text <|> wholeWord "plus" before text) = some rest)
    (hrest : trimStart rest = w ++ ',' :: e) (hw : ∀ c ∈ w, isDecimalDigit c = true) :
    addedPercentage before text = none := by
  have hcomma : (',' :: e).head?.any isDecimalDigit = false := rfl
  unfold addedPercentage
  rw [hplus]
  dsimp only [Option.bind_eq_bind, Option.bind_some]
  rw [hrest, takeWhile_append hw hcomma, List.drop_left]
  have hmark : percentMark (trimStart (',' :: e)) = none := by
    have hink : trimStart (',' :: e) = ',' :: e := trimStart_of_head? rfl
    rw [hink]
    rfl
  cases w with
  | nil => rfl
  | cons c cs => simp [hmark]

end

/-! ### The normal form -/

lemma ne_plus_of_not_mem {s : List Char} (h : '+' ∉ s) : ∀ c ∈ s, (c == '+') = false :=
  fun _ hc => beq_eq_false_iff_ne.mpr (ne_of_mem_of_not_mem hc h)

namespace Addition

/-- The words are plain, no abbreviation begins in front of the numeral, and no rate. -/
lemma spec : ∀ a ∈ all,
    (∀ w ∈ a.lead ++ [a.plus], w ≠ "" ∧ w.toList.all isPlain = true) ∧
    (∀ x ∈ [Abbreviation.adValorem, .perCent, .kilograms, .number],
      Pattern.bars x.start.toList none a.front = true) ∧
    a.front.head?.any (fun c => isOpening c || isNumeralChar c || "n0f".toList.contains c) =
      false := by
  decide +kernel

lemma front_append (a : Addition) (t : List Char) :
    a.front ++ t = a.before ++ (a.plus.toList ++ ' ' :: t) := by
  simp [front]

/-- Nothing is found in front of the plus, which begins behind no word, nor in the plus itself. -/
lemma search_spec : ∀ a ∈ all,
    '+' ∉ a.before ∧ Pattern.bars "plus".toList none a.before = true ∧
    a.before.getLast?.any isWord = false ∧
    (a.plus = "+" ∨ a.plus = "plus") := by
  decide +kernel

variable {a : Addition} {n : List Char}

lemma bars_front (ha : a ∈ all) (x : Abbreviation) :
    Pattern.bars x.start.toList none a.front = true :=
  (spec a ha).2.1 x (by cases x <;> decide)

lemma normalize_eq (ha : a ∈ all) {f : PercentForm} (hf : f ∈ percentForms) (hempty : f.front = "")
    (hn : isNumeral n = true) {raw : String}
    (hraw : raw.toList.map Char.toLower = a.front ++ (n ++ f.tail)) :
    normalize raw = String.ofList (a.front ++ (n ++ f.ending)) := by
  obtain ⟨hwords, -, hhead⟩ := spec a ha
  obtain ⟨-, -, -, hending, -⟩ := PercentForm.spec f hf
  have hjoin : [' '].intercalate ((a.lead ++ [a.plus]).map String.toList ++ f.texts n) =
      a.front ++ (n ++ f.tail) := by
    have hne : f.texts n ≠ [] := List.cons_ne_nil _ _
    rw [intercalate_append ' ' hne]
    unfold front before PercentForm.texts PercentForm.tail
    rw [hempty, intercalate_append_cons]
    simp [List.flatMap_append, List.flatMap_map]
  have htext : Spread ((a.lead ++ [a.plus]).map String.toList ++ f.texts n)
      ([] ++ (a.front ++ (n ++ f.tail))) := by
    rw [← hjoin]
    exact spread_intercalate (List.append_ne_nil_of_right_ne_nil _ (List.cons_ne_nil _ _))
  have heven : even raw.toList = a.front ++ (n ++ f.tail) := by
    have hnil : Blanks [] := List.forall_mem_nil _
    rw [← hjoin]
    refine even_of_spread hnil htext hraw fun w hw => ?_
    rcases List.mem_append.mp hw with hw | hw
    · obtain ⟨v, hv, rfl⟩ := List.mem_map.mp hw
      obtain ⟨hne, hplain⟩ := hwords v hv
      exact ⟨fun h => hne (String.toList_eq_nil_iff.mp h), plain_of_all hplain⟩
    · exact PercentForm.plain_of_mem_texts hf hn w hw
  refine normalize_eq_of_numeral hn (bars_front ha) ?_ (PercentForm.head?_tail hf) hending heven
  cases h : a.front.head? with
  | none => rfl
  | some c =>
    rw [h] at hhead
    have hc : (isOpening c || isNumeralChar c || "n0f".toList.contains c) = false := hhead
    unfold isOpening at hc
    simp only [Bool.or_eq_false_iff] at hc
    exact hc.1.1.2

end Addition

/-! ### The rate -/

lemma ending_spec : ∀ f ∈ percentForms, '+' ∉ f.ending ∧
    Pattern.bars "plus".toList none f.ending = true ∧
    (f.front = "" → (percentMark (trimStart f.ending)).isSome = true) := by
  decide +kernel

section

variable {n : List Char} {f : PercentForm}

lemma ne_of_mem_numeral (hn : isNumeral n = true) {c : Char} (hc : c ∈ n) : c ≠ '+' ∧ c ≠ 'p' := by
  have hc := isNumeralChar_of_isNumeral hn c hc
  constructor <;> (rintro rfl; exact absurd hc (by decide))

lemma idle_percentage (hf : f ∈ percentForms) (hn : isNumeral n = true) {s : List Char}
    (hs : ∀ c ∈ s, c ≠ '+' ∧ c ≠ 'p') (before : Option Char) :
    addedPercentage.Idle [] before (s ++ (n ++ f.ending)) := by
  obtain ⟨hplus, hbars, -⟩ := ending_spec f hf
  rw [← List.append_assoc]
  refine Pattern.Idle.append ?_
    (Pattern.idle_of_bars addedPercentage_starts (ne_plus_of_not_mem hplus)
      (Pattern.bars_mono hbars))
  have hall : ∀ c ∈ s ++ n, c ≠ '+' ∧ c ≠ 'p' :=
    List.forall_mem_append.mpr ⟨hs, fun c hc => ne_of_mem_numeral hn hc⟩
  exact Pattern.idle_of_bars addedPercentage_starts
    (fun c hc => beq_eq_false_iff_ne.mpr (hall c hc).1)
    (Pattern.bars_of_forall fun c hc => (hall c hc).2)

/-- A percentage by itself adds the rate that it is. -/
lemma adjustmentRate?_of_percentForm (hf : f ∈ percentForms) (hn : isNumeral n = true)
    (h0 : n ≠ ['0']) {x : Float} (hx : numeralValue? n = some x) (hempty : f.front = "")
    {raw : String} (hnormal : normalize raw = String.ofList (n ++ f.ending)) :
    adjustmentRate? raw = some (x / 100) := by
  have hparse := PercentForm.parse?_eq hf hn h0 hx none
  rw [hempty, String.toList_empty, List.nil_append] at hparse
  have hnone : addedPercentage.collect (n ++ f.ending) = [] :=
    (idle_percentage hf hn (List.forall_mem_nil _) none).collect_eq_nil
  unfold adjustmentRate?
  dsimp only
  rw [hnormal, String.toList_ofList, hnone, hparse]
  rfl

variable {a : Addition}

lemma Addition.plus_eq (ha : a ∈ Addition.all) (rest : List Char) :
    (literal "+" (a.plus.toList ++ ' ' :: rest) <|>
      wholeWord "plus" a.before.getLast? (a.plus.toList ++ ' ' :: rest)) = some (' ' :: rest) := by
  obtain ⟨-, -, hboundary, hplus | hplus⟩ := Addition.search_spec a ha
  · rw [hplus]
    rfl
  · have hliteral : literal "+" ("plus".toList ++ ' ' :: rest) = none := rfl
    rw [hplus, hliteral, Option.orElse_eq_orElse, Option.orElse_eq_or, Option.none_or,
      wholeWord_eq_some_iff]
    exact ⟨⟨(atBoundary_iff rfl).mpr hboundary, rfl⟩, rfl⟩

lemma exists_collect_of_not_comma (ha : a ∈ Addition.all) (hf : f ∈ percentForms)
    (hempty : f.front = "") (hn : isNumeral n = true) (hcomma : ',' ∉ n) :
    ∃ l, addedPercentage.collect (a.front ++ (n ++ f.ending)) = n :: l := by
  obtain ⟨hsign, hbars, -⟩ := Addition.search_spec a ha
  obtain ⟨-, -, hmark⟩ := ending_spec f hf
  obtain ⟨-, -, -, -, hend⟩ := PercentForm.spec f hf
  obtain ⟨mark, hmark⟩ := Option.isSome_iff_exists.mp (hmark hempty)
  have hidle : addedPercentage.Idle (a.plus.toList ++ ' ' :: (n ++ f.ending)) none a.before :=
    Pattern.idle_of_bars addedPercentage_starts (ne_plus_of_not_mem hsign) hbars
  rcases cases_of_isNumeral hn with ⟨-, w, d, rfl, hne, hw, hd⟩ | ⟨w, rest, rfl, -⟩
  · have hink : trimStart (' ' :: ((w ++ point d) ++ f.ending)) = w ++ (point d ++ f.ending) := by
      rw [← List.append_assoc]
      exact trimStart_append (b := [' ']) (forall_mem_of_all (by decide))
        (any_head?_of_imp (fun _ => isBlank_of_isNumeralChar) (head?_of_isNumeral hn f.ending))
    have hfound := addedPercentage_of_mark (Addition.plus_eq ha _) hink hw hd hne hend hmark
    obtain ⟨l, hl⟩ := Pattern.exists_collectFrom_eq (by simp) hfound
    refine ⟨l, ?_⟩
    rw [Addition.front_append, ← hl]
    exact (hidle.collectFrom_append).trans (by rw [Option.or_none])
  · exact absurd (by simp) hcomma

/-- One with commas is not, nor anything else. -/
lemma collect_of_comma (ha : a ∈ Addition.all) (hf : f ∈ percentForms) (hn : isNumeral n = true)
    (hcomma : ',' ∈ n) : addedPercentage.collect (a.front ++ (n ++ f.ending)) = [] := by
  obtain ⟨hsign, hbars, -, hplus⟩ := Addition.search_spec a ha
  rcases cases_of_isNumeral hn with ⟨hnot, -⟩ | ⟨w, rest, heq, hw⟩
  · exact absurd hcomma hnot
  -- the plus by its first letter and the others
  obtain ⟨c, cs, hcs, hletters⟩ : ∃ c cs, a.plus.toList ++ [' '] = c :: cs ∧
      ∀ d ∈ cs, d ≠ '+' ∧ d ≠ 'p' := by
    rcases hplus with h | h <;> rw [h]
    · exact ⟨'+', [' '], rfl, forall_mem_of_all (by decide)⟩
    · exact ⟨'p', "lus ".toList, rfl, forall_mem_of_all (by decide)⟩
  have htext : a.plus.toList ++ ' ' :: (n ++ f.ending) = c :: (cs ++ (n ++ f.ending)) :=
    calc a.plus.toList ++ ' ' :: (n ++ f.ending)
      _ = (a.plus.toList ++ [' ']) ++ (n ++ f.ending) := by simp
      _ = c :: (cs ++ (n ++ f.ending)) := by rw [hcs]; rfl
  have hink : trimStart (' ' :: (n ++ f.ending)) = w ++ ',' :: (rest ++ f.ending) := by
    have hn' : n ++ f.ending = w ++ ',' :: (rest ++ f.ending) := by rw [heq]; simp
    rw [← hn']
    exact trimStart_append (b := [' ']) (forall_mem_of_all (by decide))
      (any_head?_of_imp (fun _ => isBlank_of_isNumeralChar) (head?_of_isNumeral hn f.ending))
  have hnone := addedPercentage_of_comma (Addition.plus_eq ha (n ++ f.ending)) hink hw
  rw [Addition.front_append, htext] at *
  refine Pattern.Idle.collect_eq_nil (Pattern.Idle.append
    (Pattern.idle_of_bars addedPercentage_starts (ne_plus_of_not_mem hsign) hbars) ⟨?_, ?_⟩)
  · rw [List.append_nil, Option.or_none]
    exact hnone
  · exact idle_percentage hf hn hletters (some c)

/-- A text that adds a percentage is no rate itself. -/
lemma Addition.parse?_eq_none (ha : a ∈ Addition.all) (t : List Char) (hint : Option String) :
    parse? (String.ofList (a.front ++ t)) hint = none := by
  obtain ⟨-, -, hhead⟩ := Addition.spec a ha
  obtain ⟨c, cs, hcons⟩ : ∃ c cs, a.front = c :: cs := by
    refine List.exists_cons_of_ne_nil ?_
    unfold Addition.front
    simp
  rw [hcons] at hhead ⊢
  have hc : (isOpening c || isNumeralChar c || "n0f".toList.contains c) = false := hhead
  obtain ⟨hopens, hfree⟩ := Bool.or_eq_false_iff.mp hc
  refine parse?_of_not_opens ?_ ?_
  · unfold Opens
    rw [String.toList_ofList, Bool.not_eq_true]
    exact hopens
  · by_contra h
    have hhead : "n0f".toList.contains c = true := by
      have h := head?_of_isFree (Bool.of_not_eq_false h)
      rwa [String.toList_ofList (l := c :: cs ++ t)] at h
    exact Bool.false_ne_true (hfree.symm.trans hhead)

end

/-- **A heading adds the same rate in every form**, the one that its percentage is, unless the
numeral has commas: then it adds none but as a percentage alone. -/
theorem adjustmentRate?_of_numeral {n : List Char} (hn : isNumeral n = true)
    (hascii : ∀ c ∈ n, c.toNat < 128) (hfin : (decimalValue n).isFinite = true) (h0 : n ≠ ['0']) :
    parse? (String.ofList (n ++ ['%'])) none = some (.adValorem (decimalValue n / 100)) ∧
    adjustmentRate? (String.ofList (n ++ ['%'])) = some (decimalValue n / 100) ∧
    ∀ a ∈ Addition.all, ∀ f ∈ percentForms, f.front = "" → ∀ raw : String,
      raw.toList.map Char.toLower = a.front ++ (n ++ f.tail) →
      adjustmentRate? raw = if ',' ∈ n then none else some (decimalValue n / 100) := by
  have hx := numeralValue?_of_isFinite hn hascii hfin
  have hsign : ⟨"", "%", []⟩ ∈ percentForms := by decide
  have hending : PercentForm.ending ⟨"", "%", []⟩ = ['%'] := by decide
  refine ⟨?_, ?_, fun a ha f hf hempty raw hraw => ?_⟩
  · have hparse := PercentForm.parse?_eq hsign hn h0 hx none
    rwa [hending] at hparse
  · have htext : Spread (PercentForm.texts ⟨"", "%", []⟩ n) ((n ++ ['%']) ++ []) :=
      .last (List.forall_mem_nil _)
    refine adjustmentRate?_of_percentForm hsign hn h0 hx rfl
      (PercentForm.normalize_eq hsign hn (List.forall_mem_nil _) htext ?_)
    rw [String.toList_ofList, List.map_append, map_toLower_of_isNumeral hn, List.append_nil]
    rfl
  · have hnormal := Addition.normalize_eq ha hf hempty hn hraw
    unfold adjustmentRate?
    dsimp only
    rw [hnormal, String.toList_ofList]
    split_ifs with hcomma
    · rw [collect_of_comma ha hf hn hcomma, Addition.parse?_eq_none ha]
      rfl
    · obtain ⟨l, hl⟩ := exists_collect_of_not_comma ha hf hempty hn hcomma
      rw [hl]
      dsimp only
      unfold percentage?
      rw [hx]
      rfl

theorem adjustmentRate?_of_numeral_duty :
    let duty := decimalValue "7.5".toList / 100
    isNumeral "7.5".toList = true ∧ (∀ c ∈ "7.5".toList, c.toNat < 128) ∧
      (decimalValue "7.5".toList).isFinite = true ∧ "7.5".toList ≠ ['0'] ∧
      parse? (String.ofList ("7.5".toList ++ ['%'])) none = some (.adValorem duty) ∧
      adjustmentRate? "The duty provided in the applicable subheading + 7.5%" = some duty ∧
      adjustmentRate? "+ 7.5%" = some duty ∧ adjustmentRate? "plus 7.5 percent" = some duty := by
  have hn : isNumeral "7.5".toList = true := by decide
  have hascii : ∀ c ∈ "7.5".toList, c.toNat < 128 := forall_mem_of_all (by decide)
  have hfin : (decimalValue "7.5".toList).isFinite = true := by decide +kernel
  have h0 : "7.5".toList ≠ ['0'] := by decide
  obtain ⟨hparse, -, hforms⟩ := adjustmentRate?_of_numeral hn hascii hfin h0
  have hforms {raw : String} {a : Addition} (ha : a ∈ Addition.all) {f : PercentForm}
      (hf : f ∈ percentForms ∧ f.front = "")
      (hraw : raw.toList.map Char.toLower = a.front ++ ("7.5".toList ++ f.tail)) :
      adjustmentRate? raw = some (decimalValue "7.5".toList / 100) :=
    (hforms a ha f hf.1 hf.2 raw hraw).trans (if_neg (by decide))
  refine ⟨hn, hascii, hfin, h0, hparse, ?_, ?_, ?_⟩
  · exact hforms
      (a := ⟨["the", "duty", "provided", "in", "the", "applicable", "subheading"], "+"⟩)
      (f := ⟨"", "%", []⟩) (by decide) (by decide) (by decide)
  · exact hforms (a := ⟨[], "+"⟩) (f := ⟨"", "%", []⟩) (by decide) (by decide) (by decide)
  · exact hforms (a := ⟨[], "plus"⟩) (f := ⟨"", "", ["percent"]⟩) (by decide) (by decide)
      (by decide)

/-- Of one numeral with a comma, the percentage alone is a rate, and what adds it is none. -/
theorem adjustmentRate?_thousand :
    isNumeral "1,000".toList = true ∧ (∀ c ∈ "1,000".toList, c.toNat < 128) ∧
      (decimalValue "1,000".toList).isFinite = true ∧ 0 < decimalValue "1,000".toList ∧
      (parse? "1,000%" none).isSome = true ∧ (adjustmentRate? "1,000%").isSome = true ∧
      adjustmentRate? "The duty provided in the applicable subheading + 1,000%" = none ∧
      adjustmentRate? "+ 1,000%" = none ∧ adjustmentRate? "plus 1,000 percent" = none :=
  ⟨by decide, forall_mem_of_all (by decide), by decide +kernel, by decide +kernel,
    by decide +kernel, by decide +kernel, Option.isNone_iff_eq_none.mp (by decide +kernel),
    Option.isNone_iff_eq_none.mp (by decide +kernel),
    Option.isNone_iff_eq_none.mp (by decide +kernel)⟩

end Tariff.Adjustment
