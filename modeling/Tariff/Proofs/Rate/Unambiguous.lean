import Tariff.Proofs.Lists
import Tariff.Proofs.Rate.Readers
import Tariff.Proofs.Text.Runs
import Tariff.Proofs.Text.Trim

/-!
The grammar is unambiguous. Which family of rules knows a text can be told from the text alone:
one with a plus sign can only be a compound rate, and of the others what follows the first numeral
decides. So the rules may be tried in any order.
-/

namespace Tariff.Rate

open Tariff.Text

/-! ### The rules one by one -/

inductive Rule where
  | explicit
  | simple
  | compound
  | specific
  | range
  deriving DecidableEq

/-- The two rules for a percentage make one family, and each other rule is one. -/
inductive Family where
  | percent
  | compound
  | specific
  | range
  deriving DecidableEq

namespace Rule

def all : List Rule := [explicit, simple, compound, specific, range]

def family : Rule → Family
  | explicit => .percent
  | simple => .percent
  | compound => .compound
  | specific => .specific
  | range => .range

def shape? : Rule → String → Option String → Option Shape
  | explicit, text, _ => (explicitPercent? text.toList).map .adValorem
  | simple, text, _ => (simplePercent? text.toList).map .adValorem
  | compound, text, hint => compound? text hint
  | specific, text, hint => (specific? text hint).map .specific
  | range, text, _ => range? text

end Rule

lemma parse?_eq (text : String) (hint : Option String) : parse? text hint =
    ((if isFree text then some .free else none) <|> Rule.all.findSome? (·.shape? text hint)) := by
  simp only [parse?, Rule.all, Rule.shape?, List.findSome?_cons, List.findSome?_nil,
    Option.orElse_eq_orElse, Option.orElse_eq_or]
  cases explicitPercent? text.toList <;> cases simplePercent? text.toList <;>
    cases compound? text hint <;> cases specific? text hint <;> cases range? text <;> rfl

def explicitNumeral? (text : List Char) : Option (List Char) := do
  let (numeral, rest) ← percentHead text
  if rest.isEmpty then some numeral else none

def simpleNumeral? (text : List Char) : Option (List Char) := do
  let (numeral, rest) ← takeNumeral (trimStart (skipLiteral "(" text))
  let rest ← literal "%" (trimStart rest)
  if (skipLiteral ")" (trimStart rest)).isEmpty then some numeral else none

lemma explicitPercent?_eq (text : List Char) :
    explicitPercent? text = (explicitNumeral? text).bind percentage? := by
  unfold explicitPercent? explicitNumeral?
  cases percentHead text with
  | none => rfl
  | some p =>
    obtain ⟨numeral, rest⟩ := p
    simp only [Option.bind_eq_bind, Option.bind_some]
    split_ifs <;> rfl

lemma simplePercent?_eq (text : List Char) :
    simplePercent? text = (simpleNumeral? text).bind percentage? := by
  unfold simplePercent? simpleNumeral?
  cases takeNumeral (trimStart (skipLiteral "(" text)) with
  | none => rfl
  | some p =>
    obtain ⟨numeral, rest⟩ := p
    simp only [Option.bind_eq_bind, Option.bind_some]
    cases literal "%" (trimStart rest) with
    | none => rfl
    | some rest =>
      simp only [Option.bind_some]
      split_ifs <;> rfl

/-! ### What follows the first numeral -/

/-- The family of a rate without plus signs, by what follows its first numeral. -/
def toldBy (follow : List Char) : Family :=
  if (trimStart (skipLiteral "%" follow)).head?.any (fun c => c == '-' || c == 't') then .range
  else if (percentMark follow).isSome then .percent
  else .specific

def familyOf (text : List Char) : Family :=
  if '+' ∈ text then .compound else toldBy (figure text).2

/-- A rate with one numeral to begin with and no plus sign, that belongs to a family. -/
structure Told (text numeral : List Char) (family : Family) : Prop where
  plus : '+' ∉ text
  follow : ∃ f, Reads text numeral f ∧ f ≠ [] ∧ toldBy f = family

lemma Told.familyOf_eq {text numeral : List Char} {family : Family}
    (h : Told text numeral family) : familyOf text = family := by
  obtain ⟨f, hf, -, rfl⟩ := h.follow
  unfold familyOf
  rw [if_neg h.plus, hf.eq]

lemma Told.unique {text n n' : List Char} {family family' : Family} (h : Told text n family)
    (h' : Told text n' family') : n = n' := by
  obtain ⟨f, hf, -⟩ := h.follow
  obtain ⟨f', hf', -⟩ := h'.follow
  exact (hf.unique hf').1

lemma trimStart_of_head? {text : List Char} (h : text.head?.any isBlank = false) :
    trimStart text = text :=
  dropWhile_of_head? h

lemma toldBy_percent (rest : List Char) : toldBy ("percent".toList ++ rest) = .percent := rfl

lemma toldBy_sign {rest : List Char} (h : (trimStart rest).head? ∈ [none, some ')', some 'a']) :
    toldBy ('%' :: rest) = .percent := by
  have hskip : skipLiteral "%" ('%' :: rest) = rest := rfl
  unfold toldBy
  rw [hskip]
  simp only [List.mem_cons, List.not_mem_nil, or_false] at h
  rcases h with h | h | h <;> rw [h] <;> rfl

lemma percentMark_eq_some {text rest : List Char} (h : percentMark text = some rest) :
    text = '%' :: rest ∨ text = "percent".toList ++ rest := by
  simp only [percentMark, Option.orElse_eq_orElse, Option.orElse_eq_or, Option.or_eq_some_iff,
    literal_eq_some_iff] at h
  exact h.imp id And.right

lemma head?_of_skipPhrase {text : List Char} (h : skipPhrase ["ad", "valorem"] text = []) :
    (trimStart text).head? ∈ [none, some ')', some 'a'] := by
  unfold skipPhrase at h
  cases hp : phrase ["ad", "valorem"] text with
  | none =>
    rw [hp] at h
    have : text = [] := h
    rw [this]
    decide
  | some rest =>
    simp only [phrase, Option.bind_eq_bind, Option.bind_eq_some_iff] at hp
    obtain ⟨_, hb, _, hl, -⟩ := hp
    obtain ⟨-, rfl⟩ := someBlanks_eq_some_iff.mp hb
    rw [literal_eq_some_iff.mp hl]
    exact List.mem_cons_of_mem _ (List.mem_cons_of_mem _ List.mem_cons_self)

lemma told_of_explicitNumeral? {text numeral : List Char}
    (h : explicitNumeral? text = some numeral) : Told text numeral .percent := by
  simp only [explicitNumeral?, percentHead, Option.bind_eq_bind, Option.bind_eq_some_iff] at h
  obtain ⟨_, ⟨⟨n, r⟩, hn, mark, hm, hp⟩, h⟩ := h
  cases hp
  dsimp only at h hm
  split_ifs at h with he
  cases h
  rw [List.isEmpty_iff] at he
  constructor
  · have hmark := (Passes.takeNumeral hn).trans ((Passes.trimStart r).trans (.percentMark hm))
    have hwords : ∀ w ∈ ["ad", "valorem"], '+' ∉ w.toList := by decide
    refine (hmark.trans (.skipPhrase hwords mark)).not_mem ?_
    rw [he]
    exact List.not_mem_nil
  · refine ⟨trimStart r, reads_of_takeNumeral hn, ?_⟩
    rcases percentMark_eq_some hm with h | h
    · rw [h]
      exact ⟨List.cons_ne_nil _ _, toldBy_sign (head?_of_skipPhrase he)⟩
    · rw [h]
      exact ⟨List.cons_ne_nil _ _, toldBy_percent mark⟩

lemma told_of_simpleNumeral? {text numeral : List Char}
    (h : simpleNumeral? text = some numeral) : Told text numeral .percent := by
  simp only [simpleNumeral?, Option.bind_eq_bind, Option.bind_eq_some_iff] at h
  obtain ⟨⟨n, r⟩, hn, rest, hl, h⟩ := h
  dsimp only at h hl
  split_ifs at h with he
  cases h
  rw [List.isEmpty_iff] at he
  constructor
  · have hstart := (Passes.skipLiteral (s := "(") (by decide) text).trans (.trimStart _)
    have hrest := (Passes.takeNumeral hn).trans ((Passes.trimStart r).trans
      (.literal (by decide) hl))
    have hend := (Passes.trimStart rest).trans (.skipLiteral (s := ")") (by decide) _)
    refine (hstart.trans (hrest.trans hend)).not_mem ?_
    rw [he]
    exact List.not_mem_nil
  · have hsign : trimStart r = '%' :: rest := literal_eq_some_iff.mp hl
    refine ⟨trimStart r, ?_, ?_⟩
    · rcases skipLiteral_cases "(" text with ht | ht
      · rw [ht]
        exact reads_of_trimStart (forall_mem_of_all (by decide)) hn
      · rw [ht] at hn
        exact reads_of_trimStart (List.forall_mem_nil _) hn
    · rw [hsign]
      refine ⟨List.cons_ne_nil _ _, toldBy_sign ?_⟩
      rcases skipLiteral_cases ")" (trimStart rest) with hr | hr
      · rw [hr]
        exact List.mem_cons_of_mem _ List.mem_cons_self
      · rw [hr] at he
        rw [he]
        exact List.mem_cons_self

/-! A specific rate is told by what follows the amount, which is no percent mark and does not
join the bounds of a range. -/

lemma toldBy_centMark {m : String} (hm : m ∈ centMarks) (rest : List Char) :
    toldBy (m.toList ++ rest) = .specific := by
  simp only [centMarks, List.mem_cons, List.not_mem_nil, or_false] at hm
  rcases hm with rfl | rfl | rfl | rfl <;> rfl

lemma toldBy_eachWord : ∀ w ∈ eachWords, w.toList ≠ [] ∧ toldBy w.toList = .specific := by
  decide

lemma toldBy_per {rest : List Char} (h : atBoundary (some 'r') rest = true) :
    toldBy ("per".toList ++ rest) = .specific := by
  cases rest with
  | nil => rfl
  | cons c cs =>
    have hc : c ≠ 'c' := by
      rintro rfl
      exact Bool.false_ne_true h
    have hmark : percentMark ("per".toList ++ c :: cs) = none := by
      cases hp : percentMark ("per".toList ++ c :: cs) with
      | none => rfl
      | some rest =>
        rcases percentMark_eq_some hp with hp | hp
        · cases hp
        · cases hp
          exact absurd rfl hc
    have hskip : trimStart (skipLiteral "%" ("per".toList ++ c :: cs)) =
        "per".toList ++ c :: cs := rfl
    unfold toldBy
    rw [hmark, hskip]
    rfl

lemma told_of_separator {r rest : List Char} {before : Option Char}
    (h : separator before r = some rest) : trimStart r ≠ [] ∧ toldBy (trimStart r) = .specific := by
  unfold separator at h
  simp only [Option.orElse_eq_orElse, Option.orElse_eq_or, Option.map_eq_some_iff,
    Option.or_eq_some_iff, literal_eq_some_iff, wholeWord_eq_some_iff] at h
  obtain ⟨r', h | ⟨-, ⟨-, h⟩, hb⟩, -⟩ := h
  · rw [h]
    exact ⟨List.cons_ne_nil _ _, rfl⟩
  · rw [h]
    exact ⟨List.cons_ne_nil _ _, toldBy_per hb⟩

lemma told_of_mem_prices {text rest : List Char} {price : Price} {last : Option Char}
    (h : (price, last, rest) ∈ prices text) (hp : '+' ∉ rest)
    (ht : trimStart rest ≠ [] ∧ toldBy (trimStart rest) = .specific) :
    ∃ numeral, Told text numeral .specific := by
  have hplus := (passes_of_mem_prices h).not_mem hp
  obtain ⟨numeral, r, hr, -, rfl | ⟨m, hm, hl⟩⟩ := reads_of_mem_prices h
  · exact ⟨numeral, hplus, trimStart rest, hr, ht⟩
  · rw [literal_eq_some_iff] at hl
    have hne : ∀ m ∈ centMarks, m.toList ≠ [] := by decide
    refine ⟨numeral, hplus, trimStart r, hr, ?_⟩
    rw [hl]
    exact ⟨List.append_ne_nil_of_left_ne_nil (hne m hm) rest, toldBy_centMark hm rest⟩

lemma told_of_specific? {text : String} {hint : Option String} {t : Term}
    (h : specific? text hint = some t) : ∃ numeral, Told text.toList numeral .specific := by
  unfold specific? at h
  split at h
  next price word hw =>
    obtain ⟨⟨p, last, rest⟩, hm, hw⟩ := List.exists_of_findSome?_eq_some hw
    dsimp only at hw
    split_ifs at hw with he
    have hmem : String.ofList (trimStart rest) ∈ eachWords := by simpa using he
    have hrest : (String.ofList (trimStart rest)).toList = trimStart rest := String.toList_ofList
    refine told_of_mem_prices hm ?_ ?_
    · have hplus : ∀ w ∈ eachWords, '+' ∉ w.toList := by decide
      have := hplus _ hmem
      rw [hrest] at this
      exact (Passes.trimStart rest).not_mem this
    · have := toldBy_eachWord _ hmem
      rwa [hrest] at this
  next =>
    simp only [Option.bind_eq_bind, Option.bind_eq_some_iff] at h
    obtain ⟨p, hp, -⟩ := h
    obtain ⟨⟨price, last, rest⟩, hm, hp⟩ := List.exists_of_findSome?_eq_some hp
    simp only [Option.bind_eq_bind, Option.bind_eq_some_iff] at hp
    obtain ⟨r, hs, hu⟩ := hp
    exact told_of_mem_prices hm ((Passes.separator hs).not_mem (not_mem_of_readUnits hu))
      (told_of_separator hs)

lemma told_of_range? {text : String} {s : Shape} (h : range? text = some s) :
    ∃ numeral, Told text.toList numeral .range := by
  simp only [range?, Option.bind_eq_bind, Option.bind_eq_some_iff, Option.orElse_eq_orElse,
    Option.orElse_eq_or, Option.or_eq_some_iff, literal_eq_some_iff] at h
  obtain ⟨⟨low, r⟩, hn, rest, hj, ⟨high, r'⟩, hn', h⟩ := h
  dsimp only at h hj
  split_ifs at h with he
  have hjoin : ∃ j, trimStart (skipLiteral "%" (trimStart r)) = j ++ rest ∧ '+' ∉ j ∧
      (j ++ rest).head?.any (fun c => c == '-' || c == 't') = true := by
    rcases hj with hj | ⟨-, hj⟩
    · exact ⟨_, hj, by decide, rfl⟩
    · exact ⟨_, hj, by decide, rfl⟩
  obtain ⟨j, hj, hplus, hhead⟩ := hjoin
  refine ⟨low, ?_, trimStart r, reads_of_takeNumeral hn, ?_, ?_⟩
  · have hlow := (Passes.takeNumeral hn).trans ((Passes.trimStart r).trans
      (.skipLiteral (s := "%") (by decide) _))
    have hrest := (hlow.trans (.trimStart _)).trans ⟨j, hj, hplus⟩
    have hhigh := (hrest.trans (.trimStart _)).trans (.takeNumeral hn')
    refine (hhigh.trans (.trimStart r')).not_mem ?_
    rw [he]
    decide
  · intro hr
    rw [hr] at hj
    rw [← hj] at hhead
    cases hhead
  · unfold toldBy
    rw [hj, if_pos hhead]

/-! ### Compound rates -/

/-- A text begins as a rate does: with a numeral or with what may stand before one. -/
def Opens (text : List Char) : Prop :=
  text.head?.any (fun c => isOpening c || isNumeralChar c) = true

lemma opens_of_told {text numeral : List Char} {family : Family}
    (h : Told text numeral family) : Opens text :=
  have ⟨_, hf, _⟩ := h.follow
  hf.opens

lemma opens_of_component? {hint : Option String} {text : List Char} {c : Component}
    (h : component? hint text = some c) : Opens text := by
  unfold component? at h
  split at h
  next rate hrate =>
    simp only [percentComponent?, percentHead, Option.bind_eq_bind,
      Option.bind_eq_some_iff] at hrate
    obtain ⟨_, ⟨⟨n, r⟩, hn, -⟩, -⟩ := hrate
    exact (reads_of_takeNumeral hn).opens
  next =>
    obtain ⟨t, ht, -⟩ := Option.map_eq_some_iff.mp h
    obtain ⟨n, hn⟩ := told_of_specific? ht
    have := opens_of_told hn
    rwa [String.toList_ofList] at this

/-- Trimming takes away openings only. -/
lemma opens_of_trim {text : List Char} (h : Opens (trim text)) : Opens text := by
  rcases text with - | ⟨c, cs⟩
  · cases h
  · have hc : isOpening c = true ∨ isBlank c = false := by
      unfold isOpening
      cases isBlank c <;> simp
    rcases hc with hc | hc
    · have : (isOpening c || isNumeralChar c) = true := by rw [hc, Bool.true_or]
      exact this
    · unfold Opens at h ⊢
      unfold trim at h
      have hstart : trimStart (c :: cs) = c :: cs := trimStart_of_head? hc
      rw [hstart] at h
      cases ht : (trimEnd (c :: cs)).head? with
      | none =>
        rw [ht] at h
        cases h
      | some d =>
        rwa [head?_dropTail ht, ← ht]

/-- A compound rate has a plus sign, and its first part begins it. -/
lemma told_of_compound? {text : String} {hint : Option String} {s : Shape}
    (h : compound? text hint = some s) : '+' ∈ text.toList ∧ Opens text.toList := by
  unfold compound? at h
  dsimp only at h
  split_ifs at h with hparts
  obtain ⟨cs, hcs, -⟩ := Option.bind_eq_some_iff.mp h
  simp only [Bool.or_eq_true, decide_eq_true_eq, not_or, List.length_map] at hparts
  obtain ⟨⟨-, hlen⟩, -⟩ := hparts
  constructor
  · by_contra hplus
    have hnone : ∀ c ∈ text.toList, (c == '+') = false := by
      intro c hc
      rw [beq_eq_false_iff_ne]
      rintro rfl
      exact hplus hc
    rw [splitAt_of_not hnone] at hlen
    exact hlen (by simp)
  · obtain ⟨part, rest, hp, hhead⟩ := exists_splitAt (· == '+') text.toList
    simp only [hp, List.map_cons, List.mapM_cons, Option.bind_eq_bind,
      Option.bind_eq_some_iff] at hcs
    obtain ⟨c, hc, -⟩ := hcs
    have hopens := opens_of_trim (opens_of_component? hc)
    unfold Opens at hopens ⊢
    cases hpart : part.head? with
    | none =>
      rw [hpart] at hopens
      cases hopens
    | some d =>
      have htext : text.toList.head? = some d := hhead d hpart
      rwa [htext, ← hpart]

/-! ### One family for each text -/

/-- The family of the rule that knows a text can be told from the text, and the text begins as a
rate does. -/
lemma told_of_shape? {r : Rule} {text : String} {hint : Option String} {s : Shape}
    (h : r.shape? text hint = some s) : Opens text.toList ∧ familyOf text.toList = r.family ∧
      (r ≠ .compound → ∃ numeral, Told text.toList numeral r.family) := by
  have hleaf {numeral : List Char} {family : Family} (h : Told text.toList numeral family) :
      Opens text.toList ∧ familyOf text.toList = family ∧
        (r ≠ .compound → ∃ numeral, Told text.toList numeral family) :=
    ⟨opens_of_told h, h.familyOf_eq, fun _ => ⟨numeral, h⟩⟩
  cases r with
  | explicit =>
    obtain ⟨rate, hrate, -⟩ := Option.map_eq_some_iff.mp h
    rw [explicitPercent?_eq, Option.bind_eq_some_iff] at hrate
    obtain ⟨numeral, hn, -⟩ := hrate
    exact hleaf (told_of_explicitNumeral? hn)
  | simple =>
    obtain ⟨rate, hrate, -⟩ := Option.map_eq_some_iff.mp h
    rw [simplePercent?_eq, Option.bind_eq_some_iff] at hrate
    obtain ⟨numeral, hn, -⟩ := hrate
    exact hleaf (told_of_simpleNumeral? hn)
  | compound =>
    obtain ⟨hplus, hopens⟩ := told_of_compound? h
    refine ⟨hopens, ?_, fun hr => absurd rfl hr⟩
    unfold familyOf
    rw [if_pos hplus]
    rfl
  | specific =>
    obtain ⟨t, ht, -⟩ := Option.map_eq_some_iff.mp h
    obtain ⟨numeral, hn⟩ := told_of_specific? ht
    exact hleaf hn
  | range =>
    obtain ⟨numeral, hn⟩ := told_of_range? h
    exact hleaf hn

/-- Where both forms of a percentage match, they match the same numeral. -/
lemma explicitPercent?_eq_simplePercent? {text n n' : List Char}
    (h : explicitNumeral? text = some n) (h' : simpleNumeral? text = some n') :
    explicitPercent? text = simplePercent? text := by
  rw [explicitPercent?_eq, simplePercent?_eq, h, h',
    (told_of_explicitNumeral? h).unique (told_of_simpleNumeral? h')]

lemma eq_of_isFree {r : Rule} {text : String} {hint : Option String} {s : Shape}
    (hf : isFree text = true) (h : r.shape? text hint = some s) : text = "0%" := by
  obtain ⟨hopens, hfamily, htold⟩ := told_of_shape? h
  unfold isFree at hf
  simp only [Bool.or_eq_true, List.contains_eq_mem, List.mem_cons, List.not_mem_nil, or_false,
    decide_eq_true_eq, Option.isSome_iff_exists, literal_eq_some_iff] at hf
  rcases hf with (rfl | rfl | rfl) | ⟨rest, hf⟩
  · exact absurd hopens (by unfold Opens; decide)
  · have hr : r ≠ .compound := by
      rintro rfl
      have hc : compound? "0" hint = some s := h
      exact absurd (told_of_compound? hc).1 (by decide)
    obtain ⟨n, hn⟩ := htold hr
    obtain ⟨f, hf, hne, -⟩ := hn.follow
    have hnil : figure "0".toList = (['0'], []) := by decide
    rw [hf.eq] at hnil
    exact absurd (Prod.mk.inj hnil).2 hne
  · rfl
  · unfold Opens at hopens
    rw [hf] at hopens
    exact absurd hopens Bool.false_ne_true

lemma head?_of_isFree {text : String} (h : isFree text = true) :
    text.toList.head?.any (fun c => "n0f".toList.contains c) = true := by
  unfold isFree at h
  simp only [Bool.or_eq_true, List.contains_eq_mem, List.mem_cons, List.not_mem_nil, or_false,
    decide_eq_true_eq, Option.isSome_iff_exists, literal_eq_some_iff] at h
  rcases h with (rfl | rfl | rfl) | ⟨rest, h⟩
  · decide
  · decide
  · decide
  · rw [h]
    rfl

/-- What does not begin as a rate does is not known. -/
lemma parse?_of_not_opens {text : String} {hint : Option String} (hopens : ¬Opens text.toList)
    (hfree : isFree text = false) : parse? text hint = none := by
  rw [parse?_eq, hfree, Option.orElse_eq_orElse, Option.orElse_eq_or, if_neg Bool.false_ne_true,
    Option.none_or, List.findSome?_eq_none_iff]
  intro r _
  cases h : r.shape? text hint with
  | none => rfl
  | some s => exact absurd (told_of_shape? h).1 hopens

lemma eq_of_family {r r' : Rule} {text : String} {hint : Option String} {s s' : Shape}
    (hf : r.family = r'.family) (h : r.shape? text hint = some s)
    (h' : r'.shape? text hint = some s') : s = s' := by
  have hpercent {s s' : Shape} (h : Rule.explicit.shape? text hint = some s)
      (h' : Rule.simple.shape? text hint = some s') : s = s' := by
    obtain ⟨rate, hr, rfl⟩ := Option.map_eq_some_iff.mp h
    obtain ⟨rate', hr', rfl⟩ := Option.map_eq_some_iff.mp h'
    obtain ⟨n, hn, -⟩ := Option.bind_eq_some_iff.mp ((explicitPercent?_eq _).symm.trans hr)
    obtain ⟨n', hn', -⟩ := Option.bind_eq_some_iff.mp ((simplePercent?_eq _).symm.trans hr')
    rw [explicitPercent?_eq_simplePercent? hn hn', hr'] at hr
    cases hr
    rfl
  rcases eq_or_ne r r' with rfl | hne
  · exact Option.some.inj (h.symm.trans h')
  · cases r <;> cases r' <;> first
      | exact absurd rfl hne
      | exact absurd hf (by decide)
      | exact hpercent h h'
      | exact (hpercent h' h).symm

/-- But for `0%`, what one rule makes of a text is what the text says. -/
lemma parse?_of_shape? {r : Rule} {text : String} {hint : Option String} {s : Shape}
    (h : r.shape? text hint = some s) (hne : text ≠ "0%") : parse? text hint = some s := by
  have hfree : isFree text = false := by
    by_contra hf
    exact hne (eq_of_isFree (Bool.of_not_eq_false hf) h)
  have hmem : r ∈ Rule.all := by cases r <;> decide
  have hsome : (Rule.all.findSome? (·.shape? text hint)).isSome = true :=
    List.findSome?_isSome_iff.mpr ⟨r, hmem, by rw [h]; rfl⟩
  obtain ⟨s', hs'⟩ := Option.isSome_iff_exists.mp hsome
  obtain ⟨r', -, hr'⟩ := List.exists_of_findSome?_eq_some hs'
  have hfamily : r.family = r'.family :=
    (told_of_shape? h).2.1.symm.trans (told_of_shape? hr').2.1
  rw [parse?_eq, hfree, hs', eq_of_family hfamily h hr']
  rfl

lemma findSome?_of_agree {f : Rule → Option Shape}
    (hf : ∀ r r' s s', f r = some s → f r' = some s' → s = s') {rules rules' : List Rule}
    (h : ∀ r, r ∈ rules) (h' : ∀ r, r ∈ rules') : rules.findSome? f = rules'.findSome? f := by
  have hle {rules rules' : List Rule} (h : ∀ r, r ∈ rules) {s : Shape}
      (hs : rules'.findSome? f = some s) : rules.findSome? f = some s := by
    obtain ⟨r, -, hr⟩ := List.exists_of_findSome?_eq_some hs
    have hsome : (rules.findSome? f).isSome = true :=
      List.findSome?_isSome_iff.mpr ⟨r, h r, by rw [hr]; rfl⟩
    obtain ⟨s', hs'⟩ := Option.isSome_iff_exists.mp hsome
    obtain ⟨r', -, hr'⟩ := List.exists_of_findSome?_eq_some hs'
    rw [hs', hf r' r s' s hr' hr]
  exact Option.ext fun s => ⟨hle h', hle h⟩

structure Unambiguous (text : String) (hint : Option String) : Prop where
  /-- The rules that know the text are of one family and give one rate. -/
  one_rate : ∀ (r r' : Rule) (s s' : Shape), r.shape? text hint = some s →
    r'.shape? text hint = some s' → r.family = r'.family ∧ s = s'
  /-- The two forms of a percentage give one rate, or none, wherever both match. -/
  one_percentage : ∀ n n', explicitNumeral? text.toList = some n →
    simpleNumeral? text.toList = some n' → explicitPercent? text.toList = simplePercent? text.toList
  /-- A rate of nothing is no other rate, but for `0%`, which is a percentage. -/
  free : isFree text = true → ∀ (r : Rule) (s : Shape), r.shape? text hint = some s →
    text = "0%" ∧ r.family = .percent
  /-- The rules behind the one for rates of nothing may be tried in any order. -/
  any_order : ∀ rules : List Rule, (∀ r, r ∈ rules) → parse? text hint =
    ((if isFree text then some .free else none) <|> rules.findSome? (·.shape? text hint))

/-- **The grammar is unambiguous.** -/
theorem grammar_unambiguous (text : String) (hint : Option String) : Unambiguous text hint := by
  have hone (r r' : Rule) (s s' : Shape) (h : r.shape? text hint = some s)
      (h' : r'.shape? text hint = some s') : r.family = r'.family ∧ s = s' := by
    have hf : r.family = r'.family := (told_of_shape? h).2.1.symm.trans (told_of_shape? h').2.1
    exact ⟨hf, eq_of_family hf h h'⟩
  constructor
  case one_rate => exact hone
  case one_percentage => exact fun n n' => explicitPercent?_eq_simplePercent?
  case free =>
    intro hf r s h
    have htext := eq_of_isFree hf h
    have hfamily := (told_of_shape? h).2.1
    rw [htext] at hfamily
    exact ⟨htext, hfamily.symm.trans (by decide)⟩
  case any_order =>
    intro rules hrules
    have hall : ∀ r, r ∈ Rule.all := by
      intro r
      cases r <;> decide
    rw [parse?_eq, findSome?_of_agree (fun r r' s s' h h' => (hone r r' s s' h h').2) hall hrules]

/-- The one text that a rule for percentages shares with the rule for rates of nothing. -/
theorem grammar_unambiguous_zero_percent : Unambiguous "0%" none ∧ isFree "0%" = true ∧
    explicitNumeral? "0%".toList = some ['0'] ∧ simpleNumeral? "0%".toList = some ['0'] ∧
    (Rule.explicit.shape? "0%" none).isSome = true ∧
    (Rule.simple.shape? "0%" none).isSome = true :=
  ⟨grammar_unambiguous "0%" none, by decide, by decide, by decide, by decide +kernel,
    by decide +kernel⟩

end Tariff.Rate
