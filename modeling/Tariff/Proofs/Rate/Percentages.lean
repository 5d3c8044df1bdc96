import Tariff.Proofs.Rate.Canonical
import Tariff.Proofs.Rate.Numerals
import Tariff.Proofs.Rate.Unambiguous

/-!
Percentages as they are written: `5%`, `5 Per Cent`, `5 % ad val.` or `(5%)`, in any case and with
any blanks between the words. The numeral stands in front of the letters, so the steps that lead to
the normal form go over it and change only what stands behind, and of that there are few kinds.
-/

namespace Tariff.Rate

open Tariff.Text Tariff.Decimal

/-! ### Spellings -/

/-- A way to write a percentage: what stands at either side of the numeral, and the words that
follow. -/
structure PercentForm where
  front : String
  mark : String
  words : List String
  deriving DecidableEq

def percentMarks : List PercentForm :=
  [⟨"", "%", []⟩, ⟨"", "", ["%"]⟩, ⟨"", "", ["percent"]⟩, ⟨"", "", ["per", "cent"]⟩]

def valuePhrases : List (List String) :=
  [[], ["ad", "valorem"], ["ad", "val"], ["ad", "val."]]

def percentForms : List PercentForm :=
  (percentMarks.flatMap fun f => valuePhrases.map fun v => { f with words := f.words ++ v }) ++
    [⟨"(", "%)", []⟩, ⟨"(", "", ["%)"]⟩]

namespace PercentForm

def texts (f : PercentForm) (n : List Char) : List (List Char) :=
  ((f.front.toList ++ n) ++ f.mark.toList) :: f.words.map String.toList

/-- What stands behind the numeral, with one space in front of each word. -/
def tail (f : PercentForm) : List Char :=
  [' '].intercalate (f.mark.toList :: f.words.map String.toList)

end PercentForm

/-- Words one after another, blanks between them and perhaps behind the last. -/
inductive Spread : List (List Char) → List Char → Prop where
  | last {w b : List Char} (hb : Blanks b) : Spread [w] (w ++ b)
  | more {w b t : List Char} {ws : List (List Char)} (hne : b ≠ []) (hb : Blanks b)
      (ht : Spread ws t) : Spread (w :: ws) (w ++ (b ++ t))

/-- Words with one space between them are spread. -/
lemma spread_intercalate {ws : List (List Char)} (hne : ws ≠ []) :
    Spread ws ([' '].intercalate ws) := by
  induction ws with
  | nil => exact absurd rfl hne
  | cons w ws ih =>
    cases ws with
    | nil =>
      rw [List.intercalate_singleton]
      have h : Spread [w] (w ++ []) := .last (List.forall_mem_nil _)
      rwa [List.append_nil] at h
    | cons v vs =>
      rw [List.intercalate_cons_cons, List.append_assoc]
      exact .more (List.cons_ne_nil _ _) (forall_mem_of_all (by decide))
        (ih (List.cons_ne_nil v vs))

namespace Spread

variable {ws : List (List Char)} {text : List Char}

lemma mem (h : Spread ws text) {c : Char} (hc : c ∈ text) :
    isBlank c = true ∨ ∃ w ∈ ws, c ∈ w := by
  induction h with
  | last hb =>
    rcases List.mem_append.mp hc with hc | hc
    · exact .inr ⟨_, List.mem_cons_self, hc⟩
    · exact .inl (hb c hc)
  | more _ hb _ ih =>
    rcases List.mem_append.mp hc with hc | hc
    · exact .inr ⟨_, List.mem_cons_self, hc⟩
    · rcases List.mem_append.mp hc with hc | hc
      · exact .inl (hb c hc)
      · exact (ih hc).imp_right fun ⟨w, hw, hc⟩ => ⟨w, List.mem_cons_of_mem _ hw, hc⟩

lemma mem_of_mem (h : Spread ws text) {w : List Char} (hw : w ∈ ws) {c : Char} (hc : c ∈ w) :
    c ∈ text := by
  induction h with
  | last _ =>
    rw [List.mem_singleton.mp hw] at hc
    exact List.mem_append_left _ hc
  | more _ _ _ ih =>
    rcases List.mem_cons.mp hw with rfl | hw
    · exact List.mem_append_left _ hc
    · exact List.mem_append_right _ (List.mem_append_right _ (ih hw))

lemma pieces_eq (h : Spread ws text) (hws : ∀ w ∈ ws, w ≠ [] ∧ ∀ c ∈ w, isBlank c = false) :
    pieces text = ws := by
  have hskip {b : List Char} (hb : Blanks b) : ∀ c ∈ b, (!isBlank c) = false := fun c hc => by
    rw [hb c hc]
    rfl
  have hword {w : List Char} (hw : w ≠ [] ∧ ∀ c ∈ w, isBlank c = false) : pieces w = [w] :=
    runsOf_of_all hw.1 fun c hc => by
      rw [hw.2 c hc]
      rfl
  induction h with
  | @last w b hb =>
    have hend : b.head?.any (!isBlank ·) = false := by
      cases b with
      | nil => rfl
      | cons c cs => exact hskip hb c List.mem_cons_self
    unfold pieces
    rw [runsOf_append hend, runsOf_of_not (hskip hb), List.append_nil]
    exact hword (hws w List.mem_cons_self)
  | @more w b t ws hne hb _ ih =>
    obtain ⟨hw, hws⟩ := List.forall_mem_cons.mp hws
    have hend : (b ++ t).head?.any (!isBlank ·) = false := by
      obtain ⟨c, cs, rfl⟩ := List.exists_cons_of_ne_nil hne
      exact hskip hb c List.mem_cons_self
    have hrest : pieces (b ++ t) = pieces t := runsOf_append_of_not (hskip hb) t
    have happ : pieces (w ++ (b ++ t)) = pieces w ++ pieces (b ++ t) := runsOf_append hend w
    rw [happ, hrest, hword hw, ih hws]
    rfl

end Spread

/-! ### Up to the words -/

structure Plain (c : Char) : Prop where
  ink : isBlank c = false
  low : Low c
  dash : isDash c = false

def isPlain (c : Char) : Bool :=
  decide (isBlank c = false ∧ (lowerChar c = [c] ∧ c ≠ 'Σ') ∧ isDash c = false)

lemma plain_of_all {s : List Char} (h : s.all isPlain = true) : ∀ c ∈ s, Plain c := by
  intro c hc
  obtain ⟨hink, ⟨hlower, hsigma⟩, hdash⟩ := of_decide_eq_true (List.all_eq_true.mp h c hc)
  exact ⟨hink, ⟨hlower, hsigma⟩, hdash⟩

lemma isDash_eq_false {p : Char → Bool}
    (hp : ∀ d ∈ ['\u2012', '\u2013', '\u2014', '\u2212'], p d = false) {c : Char}
    (hc : p c = true) : isDash c = false := by
  cases h : isDash c with
  | false => rfl
  | true =>
    unfold isDash at h
    simp only [Bool.or_eq_true, beq_iff_eq, or_assoc] at h
    rw [hp c (by simpa using h)] at hc
    cases hc

lemma plain_of_isNumeralChar {c : Char} (h : isNumeralChar c = true) : Plain c where
  ink := isBlank_of_isNumeralChar h
  dash := isDash_eq_false (forall_mem_of_all (by decide +kernel)) h
  low := by
    unfold isNumeralChar at h
    simp only [Bool.or_eq_true, beq_iff_eq] at h
    rcases h with (h | rfl) | rfl
    · exact low_of_isDecimalDigit h
    · exact low_of_ascii (by decide) (by decide)
    · exact low_of_ascii (by decide) (by decide)

lemma toLower_of_isNumeralChar {c : Char} (h : isNumeralChar c = true) : c.toLower = c := by
  by_cases hc : c.toNat < 128
  · exact forall_ascii (P := fun c => isNumeralChar c = true → c.toLower = c) (by decide +kernel)
      hc h
  · exact toLower_of_not_ascii hc

lemma map_toLower_of_isNumeral {n : List Char} (hn : isNumeral n = true) :
    n.map Char.toLower = n :=
  (List.map_congr_left fun c hc =>
    toLower_of_isNumeralChar (isNumeralChar_of_isNumeral hn c hc)).trans (List.map_id' n)

/-- Words of plain characters, however they are spread, come out of the first steps with single
spaces between them. -/
lemma even_of_spread {ws : List (List Char)} {lead text raw : List Char} (hlead : Blanks lead)
    (htext : Spread ws text) (hraw : raw.map Char.toLower = lead ++ text)
    (hws : ∀ w ∈ ws, w ≠ [] ∧ ∀ c ∈ w, Plain c) : even raw = [' '].intercalate ws := by
  have hall : ∀ c ∈ lead ++ text, Low c ∧ isDash c = false := by
    intro c hc
    have hc : isBlank c = true ∨ ∃ w ∈ ws, c ∈ w :=
      (List.mem_append.mp hc).elim (fun hc => .inl (hlead c hc)) htext.mem
    rcases hc with hc | ⟨w, hw, hc⟩
    · exact ⟨low_of_isBlank hc, isDash_eq_false (forall_mem_of_all (by decide)) hc⟩
    · have := (hws w hw).2 c hc
      exact ⟨this.low, this.dash⟩
  have hlower : lower raw = lead ++ text := by
    rw [← hraw] at hall ⊢
    exact lower_of_fold fun c hc => (hall c hc).1
  have hpieces : pieces (lead ++ text) = ws := by
    have hskip : pieces (lead ++ text) = pieces text :=
      runsOf_append_of_not (fun c hc => by rw [hlead c hc]; rfl) text
    rw [hskip]
    exact htext.pieces_eq fun w hw => ⟨(hws w hw).1, fun c hc => ((hws w hw).2 c hc).ink⟩
  unfold even squeeze
  rw [hlower, unifyDashes_eq_self fun c hc => (hall c hc).2, hpieces]

lemma not_all_isBlank {ws : List (List Char)} {lead text raw : List Char}
    (htext : Spread ws text) (hraw : raw.map Char.toLower = lead ++ text) {w : List Char}
    (hw : w ∈ ws) {c : Char} (hc : c ∈ w) (hink : isBlank c = false) :
    raw.all isBlank = false := by
  by_contra h
  have h : ∀ d ∈ raw, isBlank d = true := List.all_eq_true.mp (Bool.of_not_eq_false h)
  have hmem : c ∈ raw.map Char.toLower := by
    rw [hraw]
    exact List.mem_append_right lead (htext.mem_of_mem hw hc)
  obtain ⟨d, hd, rfl⟩ := List.mem_map.mp hmem
  rw [toLower_of_isBlank (h d hd), h d hd] at hink
  cases hink

/-! ### Behind the numeral -/

/-- The end of a text without blanks, then without stops, then without blanks again. -/
def tidyTail (t : List Char) : List Char := trimEnd (dropTail isStop (trimEnd t))

lemma tidyEnd_append {s t : List Char} (hs : s.head?.any isBlank = false) (hne : s ≠ [])
    (ht : tidyTail t ≠ []) : tidyEnd (s ++ t) = s ++ tidyTail t := by
  have hstart : trimStart (s ++ t) = s ++ t := by
    obtain ⟨c, cs, rfl⟩ := List.exists_cons_of_ne_nil hne
    exact dropWhile_of_head? hs
  have hstop : dropTail isStop (dropTail isBlank t) ≠ [] := fun h => ht (congrArg trimEnd h)
  have hblank : dropTail isBlank t ≠ [] := fun h => hstop (congrArg (dropTail isStop) h)
  unfold tidyEnd trim trimEnd
  rw [hstart, dropTail_append, if_neg hblank, dropTail_append, if_neg hstop, dropTail_append]
  exact if_neg ht

/-- Where no abbreviation begins in front of a numeral nor right behind it, the normal form changes
only what stands behind. -/
lemma normalize_eq_of_numeral {front n t : List Char} (hn : isNumeral n = true)
    (hfront : ∀ x : Abbreviation, Pattern.bars x.start.toList none front = true)
    (hink : front.head?.any isBlank = false) (ht : ∀ x : Abbreviation, t.head? ≠ some x.head)
    (hend : tidyTail (spellOut t) ≠ []) {raw : String}
    (heven : even raw.toList = front ++ (n ++ t)) :
    normalize raw = String.ofList (front ++ (n ++ tidyTail (spellOut t))) := by
  obtain ⟨c, cs, hcons, hc⟩ := exists_cons_of_isNumeral hn
  have hhead (x : Abbreviation) : isNumeralChar x.head = false := by cases x <;> decide
  have hnone (x : Abbreviation) : ∀ d ∈ n, d ≠ x.head := by
    rintro d hd rfl
    exact absurd ((isNumeralChar_of_isNumeral hn _ hd).symm.trans (hhead x)) (by decide)
  have hborder (x : Abbreviation) : (n ++ t).head? ≠ some x.head := by
    intro h
    refine hnone x c (by rw [hcons]; exact List.mem_cons_self) ?_
    rw [hcons] at h
    exact Option.some.inj h
  have hstart : (front ++ n).head?.any isBlank = false := by
    cases front with
    | nil => rw [hcons]; exact isBlank_of_isNumeralChar hc
    | cons => exact hink
  have hne : front ++ n ≠ [] := by rw [hcons]; simp
  rw [normalize_eq, heven, Abbreviation.spellOut_front hfront hborder,
    Abbreviation.spellOut_append hnone ht, ← List.append_assoc, tidyEnd_append hstart hne hend,
    List.append_assoc]

namespace PercentForm

def ending (f : PercentForm) : List Char := tidyTail (spellOut f.tail)

def letters (f : PercentForm) : List Char :=
  f.front.toList ++ f.mark.toList ++ f.words.flatMap String.toList

lemma plain_of_mem_letters {f : PercentForm} (hf : f ∈ percentForms) :
    ∀ c ∈ f.letters, Plain c := by
  have htable : ∀ f ∈ percentForms, f.letters.all isPlain = true := by decide +kernel
  exact plain_of_all (htable f hf)

/-- No word is empty, no abbreviation begins between the numeral and the words, and something is
left behind the numeral, which does not go on. -/
lemma spec : ∀ f ∈ percentForms, "" ∉ f.words ∧ (f.front = "" ∨ f.front = "(") ∧
    f.tail.head?.any (fun c => c == '%' || c == ' ') = true ∧
    f.ending ≠ [] ∧ f.ending.head?.any isNumeralChar = false := by
  decide +kernel

/-- What is left is a percent mark with the words on the value in full, if nothing stands in front
of the numeral, and else a percent sign with a parenthesis. -/
lemma ending_spec : ∀ f ∈ percentForms,
    (f.front = "" ∧
      (percentMark (trimStart f.ending)).map (skipPhrase ["ad", "valorem"]) = some []) ∨
    f.front = "(" ∧
      (literal "%" (trimStart f.ending)).map (fun t => skipLiteral ")" (trimStart t)) =
        some [] := by
  decide +kernel

variable {f : PercentForm} {n : List Char}

lemma plain_of_mem_texts (hf : f ∈ percentForms) (hn : isNumeral n = true) :
    ∀ w ∈ f.texts n, w ≠ [] ∧ ∀ c ∈ w, Plain c := by
  obtain ⟨hwords, -⟩ := spec f hf
  have hletters := plain_of_mem_letters hf
  obtain ⟨d, ds, rfl, -⟩ := exists_cons_of_isNumeral hn
  have hnumeral := isNumeralChar_of_isNumeral hn
  intro w hw
  rcases List.mem_cons.mp hw with rfl | hw
  · refine ⟨by simp, fun c hc => ?_⟩
    simp only [List.mem_append] at hc
    rcases hc with (hc | hc) | hc
    · exact hletters c (by simp [letters, hc])
    · exact plain_of_isNumeralChar (hnumeral c hc)
    · exact hletters c (by simp [letters, hc])
  · obtain ⟨v, hv, rfl⟩ := List.mem_map.mp hw
    refine ⟨fun h => hwords ?_, fun c hc => hletters c ?_⟩
    · rwa [String.toList_eq_nil_iff.mp h] at hv
    · exact List.mem_append_right _ (List.mem_flatMap.mpr ⟨v, hv, hc⟩)

lemma head?_tail (hf : f ∈ percentForms) (x : Abbreviation) : f.tail.head? ≠ some x.head := by
  obtain ⟨-, -, htail, -⟩ := spec f hf
  intro h
  rw [h] at htail
  revert htail
  cases x <;> decide

/-- The normal form is the numeral with what stands in front of it and the ending of the form. -/
lemma normalize_eq (hf : f ∈ percentForms) (hn : isNumeral n = true) {lead text : List Char}
    (hlead : Blanks lead) (htext : Spread (f.texts n) text) {raw : String}
    (hraw : raw.toList.map Char.toLower = lead ++ text) :
    normalize raw = String.ofList (f.front.toList ++ (n ++ f.ending)) := by
  obtain ⟨-, hfront, -, hending, -⟩ := spec f hf
  have heven : even raw.toList = f.front.toList ++ (n ++ f.tail) := by
    rw [even_of_spread hlead htext hraw (plain_of_mem_texts hf hn), ← List.append_assoc]
    exact intercalate_append_cons ' ' _ _ _
  have hbars (x : Abbreviation) : Pattern.bars x.start.toList none f.front.toList = true := by
    rcases hfront with h | h <;> rw [h] <;> cases x <;> decide
  refine normalize_eq_of_numeral hn hbars ?_ (head?_tail hf) hending heven
  rcases hfront with h | h <;> rw [h] <;> decide

end PercentForm

/-! ### The rules -/

lemma PercentForm.parse?_eq {f : PercentForm} (hf : f ∈ percentForms) {n : List Char}
    (hn : isNumeral n = true) (h0 : n ≠ ['0']) {x : Float} (hx : numeralValue? n = some x)
    (hint : Option String) :
    parse? (String.ofList (f.front.toList ++ (n ++ f.ending))) hint =
      some (.adValorem (x / 100)) := by
  obtain ⟨-, -, -, -, hend⟩ := spec f hf
  have htake : takeNumeral (n ++ f.ending) = some (n, f.ending) := takeNumeral_append hn hend
  have hpercent : percentage? n = some (x / 100) := by
    unfold percentage?
    rw [hx]
    rfl
  have hne {s : List Char} (hs : s ≠ ['0', '%']) : String.ofList s ≠ "0%" := fun h =>
    hs (by rw [← String.toList_ofList (l := s), h]; rfl)
  rcases ending_spec f hf with ⟨hfront, h⟩ | ⟨hfront, h⟩
  · obtain ⟨rest, hmark, hphrase⟩ := Option.map_eq_some_iff.mp h
    have hexplicit : explicitPercent? (n ++ f.ending) = some (x / 100) := by
      unfold explicitPercent? percentHead
      simp only [htake, hmark, hphrase, hpercent, Option.bind_eq_bind, Option.bind_some,
        List.isEmpty_nil, if_true]
    rw [hfront, String.toList_empty, List.nil_append]
    refine parse?_of_shape? (r := .explicit) ?_ (hne fun h => h0 ?_)
    · unfold Rule.shape?
      dsimp only
      rw [String.toList_ofList, hexplicit]
      rfl
    · -- the numeral of `0%` is zero
      have hzero : takeNumeral ['0', '%'] = some (['0'], ['%']) := by decide
      rw [h, hzero] at htake
      exact (Prod.mk.inj (Option.some.inj htake)).1.symm
  · obtain ⟨rest, hmark, hclose⟩ := Option.map_eq_some_iff.mp h
    have hopen : trimStart (skipLiteral "(" ('(' :: (n ++ f.ending))) = n ++ f.ending :=
      dropWhile_of_head?
        (any_head?_of_imp (fun _ => isBlank_of_isNumeralChar) (head?_of_isNumeral hn f.ending))
    have hsimple : simplePercent? ('(' :: (n ++ f.ending)) = some (x / 100) := by
      unfold simplePercent?
      simp only [hopen, htake, hmark, hclose, hpercent, Option.bind_eq_bind, Option.bind_some,
        List.isEmpty_nil, if_true]
    have htext : f.front.toList ++ (n ++ f.ending) = '(' :: (n ++ f.ending) := by
      rw [hfront]
      rfl
    rw [htext]
    refine parse?_of_shape? (r := .simple) ?_ (hne fun h => ?_)
    · unfold Rule.shape?
      dsimp only
      rw [String.toList_ofList, hsimple]
      rfl
    · exact absurd (List.cons.inj h).1 (by decide)

/-- **All spellings of a rate on the value compile alike.** A numeral other than zero with a percent
mark, and the words on the value behind it if there are any, or with a percent sign in parentheses,
compiles to the same formula in any case, with any blanks around and between its words, and whatever
the hint says. -/
theorem compile_percentage {n : List Char} (hn : isNumeral n = true)
    (hascii : ∀ c ∈ n, c.toNat < 128) (hfin : (decimalValue n).isFinite = true) (h0 : n ≠ ['0'])
    {f : PercentForm} (hf : f ∈ percentForms) {lead text : List Char} (hlead : Blanks lead)
    (htext : Spread (f.texts n) text) {raw : String}
    (hraw : raw.toList.map Char.toLower = lead ++ text) (hint : Option String) :
    compile raw hint = .compiled
      ⟨"value * " ++ Formula.literal (decimalValue n / 100), [.value], 1, .pattern⟩ := by
  have hx := numeralValue?_of_isFinite hn hascii hfin
  obtain ⟨c, cs, hcons, hc⟩ := exists_cons_of_isNumeral hn
  have hblank : raw.toList.all isBlank = false := by
    refine not_all_isBlank (c := c) htext hraw List.mem_cons_self ?_ (isBlank_of_isNumeralChar hc)
    rw [hcons]
    simp
  have hparse := PercentForm.parse?_eq hf hn h0 hx hint
  unfold compile
  dsimp only
  rw [hblank, PercentForm.normalize_eq hf hn hlead htext hraw, hparse]
  exact Shape.compile_of_parse? hparse (by simp [Shape.terms])

theorem compile_percentage_mixed :
    isNumeral "1,000.50".toList = true ∧
      (∀ c ∈ "1,000.50".toList, c.toNat < 128) ∧
      (decimalValue "1,000.50".toList).isFinite = true ∧
      "1,000.50".toList ≠ ['0'] ∧ ⟨"", "", ["per", "cent", "ad", "val."]⟩ ∈ percentForms ∧
      Spread (PercentForm.texts ⟨"", "", ["per", "cent", "ad", "val."]⟩ "1,000.50".toList)
        "1,000.50 per\u00A0 cent\tad val. ".toList ∧
      compile " 1,000.50 Per\u00A0 CENT\tad Val. " (some "kg") =
        .compiled ⟨"value * " ++ Formula.literal (ofScaled 100050 (-2) / 100), [.value], 1,
          .pattern⟩ := by
  have hn : isNumeral "1,000.50".toList = true := by decide
  have hascii : ∀ c ∈ "1,000.50".toList, c.toNat < 128 := forall_mem_of_all (by decide)
  have hfin : (decimalValue "1,000.50".toList).isFinite = true := by decide +kernel
  have h0 : "1,000.50".toList ≠ ['0'] := by decide
  have hf : ⟨"", "", ["per", "cent", "ad", "val."]⟩ ∈ percentForms := by decide
  have hspace : Blanks [' '] := forall_mem_of_all (by decide)
  have hwide : Blanks ['\u00A0', ' '] := forall_mem_of_all (by decide)
  have htab : Blanks ['\t'] := forall_mem_of_all (by decide)
  have htext : Spread (PercentForm.texts ⟨"", "", ["per", "cent", "ad", "val."]⟩
      "1,000.50".toList) "1,000.50 per\u00A0 cent\tad val. ".toList :=
    .more (b := [' ']) (by decide) hspace <| .more (by decide) hwide <|
      .more (by decide) htab <| .more (by decide) hspace <| .last hspace
  have hraw : " 1,000.50 Per\u00A0 CENT\tad Val. ".toList.map Char.toLower =
      [' '] ++ "1,000.50 per\u00A0 cent\tad val. ".toList := by decide
  exact ⟨hn, hascii, hfin, h0, hf, htext,
    compile_percentage hn hascii hfin h0 hf hspace htext hraw (some "kg")⟩

end Tariff.Rate
