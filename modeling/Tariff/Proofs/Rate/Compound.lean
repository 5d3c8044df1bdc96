import Tariff.Proofs.Formula.Evaluable
import Tariff.Proofs.Rate.Abbreviations
import Tariff.Proofs.Rate.Unambiguous
import Tariff.Proofs.Text.Scan

/-!
Rates with plus signs. Such a text is known exactly if it is a sum: two or three parts, one of them
a percentage and each other one a specific rate, and no part of a composite article named. Nothing
of this looks across a plus sign, so the parts may stand in any order.
-/

namespace Tariff.Rate

open Tariff.Text

/-! ### Parts of composite articles -/

def IsPartName (l : List Char) : Prop :=
  String.ofList l ∈ partWords ∨
    ∃ b, b ≠ [] ∧ (∀ c ∈ b, isBlank c = true) ∧ l = "lead".toList ++ (b ++ "content".toList)

/-- A text has such a name as a word, or as two. -/
def NamesPart (text : List Char) : Prop :=
  ∃ before l after, text = before ++ (l ++ after) ∧ IsPartName l ∧
    before.getLast?.any isWord = false ∧ after.head?.any isWord = false

lemma leadContent_eq_some_iff {before : Option Char} {text rest : List Char} {u : Unit} :
    leadContent before text = some (u, rest) ↔ before.any isWord = false ∧
      ∃ b, b ≠ [] ∧ (∀ c ∈ b, isBlank c = true) ∧
        text = "lead".toList ++ (b ++ ("content".toList ++ rest)) ∧
        rest.head?.any isWord = false :=
  twoWords_eq_some_iff (v := "lead") (w := "content") (by decide) (by decide) (by decide)

lemma isWord_of_mem_partWords :
    ∀ w ∈ partWords, w.toList ≠ [] ∧ w.toList.all isWord = true := by
  decide

lemma namesPart_iff {text : List Char} : namesPart text = true ↔ NamesPart text := by
  have hnil (before : Option Char) : leadContent before [] = none := by
    cases h : leadContent before [] with
    | none => rfl
    | some f =>
      obtain ⟨-, b, -, -, h, -⟩ := leadContent_eq_some_iff.mp h
      cases h
  have hsearch : leadContent.collectFrom none 0 text ≠ [] ↔ _ :=
    Pattern.collectFrom_ne_nil_iff hnil
  unfold namesPart Pattern.collect
  rw [Bool.or_eq_true, List.any_eq_true, Bool.not_eq_true', List.isEmpty_eq_false_iff, hsearch]
  constructor
  · rintro (⟨w, hw, hmem⟩ | h)
    · obtain ⟨-, before, after, htext, hbefore, hafter⟩ := exists_of_mem_runsOf hw
      exact ⟨before, w, after, htext, .inl (by simpa using hmem), hbefore, hafter⟩
    · obtain ⟨before, rest, rfl, hfound⟩ := h.exists_append
      obtain ⟨⟨u, after⟩, hfound⟩ := Option.isSome_iff_exists.mp hfound
      obtain ⟨hbefore, b, hne, hb, rfl, hafter⟩ := leadContent_eq_some_iff.mp hfound
      rw [Option.or_none] at hbefore
      exact ⟨before, _, after, by simp, .inr ⟨b, hne, hb, rfl⟩, hbefore, hafter⟩
  · rintro ⟨before, l, after, rfl, hl | ⟨b, hne, hb, rfl⟩, hbefore, hafter⟩
    · obtain ⟨hnil, hall⟩ := isWord_of_mem_partWords _ hl
      rw [String.toList_ofList] at hnil hall
      refine .inl ⟨l, ?_, by simpa using hl⟩
      unfold words
      rw [append_runsOf hbefore, runsOf_append hafter,
        runsOf_of_all hnil (List.all_eq_true.mp hall)]
      simp
    · refine .inr (.append_left (.here ?_))
      rw [Option.or_none]
      have := (leadContent_eq_some_iff (u := ())).mpr ⟨hbefore, b, hne, hb, rfl, hafter⟩
      rw [List.append_assoc, List.append_assoc, this]
      rfl

lemma IsPartName.shape {l : List Char} (h : IsPartName l) :
    l.head?.any isWord = true ∧ l.getLast?.any isWord = true ∧ '+' ∉ l := by
  rcases h with h | ⟨b, -, hb, rfl⟩
  · have hall : ∀ w ∈ partWords, w.toList.head?.any isWord = true ∧
        w.toList.getLast?.any isWord = true ∧ '+' ∉ w.toList := by decide
    have := hall _ h
    rwa [String.toList_ofList] at this
  · refine ⟨rfl, ?_, fun hc => ?_⟩
    · rw [← List.append_assoc, List.getLast?_append_of_ne_nil _ (by decide)]
      decide
    · rw [List.mem_append, List.mem_append] at hc
      rcases hc with hc | hc | hc
      · exact absurd hc (by decide)
      · exact absurd (hb _ hc) (by decide)
      · exact absurd hc (by decide)

section

variable {s t : List Char} {c : Char}

lemma NamesPart.append_right (h : NamesPart s) (ht : t.head?.any isWord = false) :
    NamesPart (s ++ t) := by
  obtain ⟨before, l, after, rfl, hl, hbefore, hafter⟩ := h
  refine ⟨before, l, after ++ t, by simp, hl, hbefore, ?_⟩
  cases after with
  | nil => exact ht
  | cons => exact hafter

lemma NamesPart.append_left (h : NamesPart t) (hs : s.getLast?.any isWord = false) :
    NamesPart (s ++ t) := by
  obtain ⟨before, l, after, rfl, hl, hbefore, hafter⟩ := h
  refine ⟨s ++ before, l, after, by simp, hl, ?_, hafter⟩
  rcases eq_or_ne before [] with rfl | hne
  · rwa [List.append_nil]
  · rwa [List.getLast?_append_of_ne_nil s hne]

/-- Where no name goes across the border, a name is on one side. -/
lemma NamesPart.of_append (h : NamesPart (s ++ t))
    (hacross : ∀ before l₁ l₂ after, s = before ++ l₁ → t = l₂ ++ after → l₁ ≠ [] → l₂ ≠ [] →
      ¬IsPartName (l₁ ++ l₂)) : NamesPart s ∨ NamesPart t := by
  obtain ⟨before, l, after, heq, hl, hbefore, hafter⟩ := h
  rcases cases_of_append_eq heq with ⟨x, rfl, rfl⟩ | ⟨x, rfl, rfl⟩ | ⟨l₁, l₂, h₁, h₂, rfl, hs, ht⟩
  · refine .inl ⟨before, l, x, rfl, hl, hbefore, ?_⟩
    cases x with
    | nil => rfl
    | cons => exact hafter
  · refine .inr ⟨x, l, after, rfl, hl, ?_, hafter⟩
    rcases eq_or_ne x [] with rfl | hne
    · rfl
    · rwa [List.getLast?_append_of_ne_nil s hne] at hbefore
  · exact absurd hl (hacross before l₁ l₂ after hs ht h₁ h₂)

lemma not_namesPart_singleton (hc : isWord c = false) : ¬NamesPart [c] := by
  rintro ⟨before, l, after, heq, hl, -, -⟩
  have hhead := hl.shape.1
  rcases List.singleton_eq_append_iff.mp heq with ⟨-, h⟩ | ⟨-, h⟩
  · rcases List.append_eq_singleton_iff.mp h with ⟨rfl, -⟩ | ⟨rfl, -⟩
    · cases hhead
    · have hhead : isWord c = true := hhead
      rw [hc] at hhead
      cases hhead
  · obtain rfl : l = [] := (List.append_eq_nil_iff.mp h).1
    cases hhead

lemma namesPart_cons (hc : isWord c = false) : NamesPart (c :: t) ↔ NamesPart t := by
  refine ⟨fun h => ?_, fun h => h.append_left (s := [c]) hc⟩
  refine (NamesPart.of_append (s := [c]) h ?_).resolve_left (not_namesPart_singleton hc)
  intro before l₁ l₂ after hs _ h₁ _ hl
  have hhead := hl.shape.1
  rcases List.singleton_eq_append_iff.mp hs with ⟨-, rfl⟩ | ⟨-, rfl⟩
  · have hhead : isWord c = true := hhead
    rw [hc] at hhead
    cases hhead
  · exact h₁ rfl

lemma namesPart_concat (hc : isWord c = false) : NamesPart (s ++ [c]) ↔ NamesPart s := by
  refine ⟨fun h => ?_, fun h => h.append_right hc⟩
  refine (NamesPart.of_append h ?_).resolve_right (not_namesPart_singleton hc)
  intro before l₁ l₂ after _ ht _ h₂ hl
  have hlast := hl.shape.2.1
  rw [List.getLast?_append_of_ne_nil l₁ h₂] at hlast
  rcases List.singleton_eq_append_iff.mp ht with ⟨rfl, -⟩ | ⟨rfl, -⟩
  · exact h₂ rfl
  · have hlast : isWord c = true := hlast
    rw [hc] at hlast
    cases hlast

lemma namesPart_plus : NamesPart (s ++ '+' :: t) ↔ NamesPart s ∨ NamesPart t := by
  have hplus : isWord '+' = false := by decide
  constructor
  · intro h
    rw [← namesPart_cons (t := t) hplus]
    refine h.of_append ?_
    intro before l₁ l₂ after _ ht _ h₂ hl
    obtain ⟨c, cs, rfl⟩ := List.exists_cons_of_ne_nil h₂
    cases ht
    exact hl.shape.2.2 (by simp)
  · rintro (h | h)
    · exact h.append_right hplus
    · have hlast : (s ++ ['+']).getLast?.any isWord = false := by
        rw [List.getLast?_concat]
        exact hplus
      have := h.append_left hlast
      rwa [List.append_assoc] at this

lemma namesPart_trim : NamesPart (trim s) ↔ NamesPart s := by
  have hstart (s : List Char) : NamesPart (trimStart s) ↔ NamesPart s := by
    induction s with
    | nil => rfl
    | cons c cs ih =>
      unfold trimStart at ih ⊢
      cases hc : isBlank c with
      | true =>
        rw [List.dropWhile_cons_of_pos hc, ih, namesPart_cons (Formula.isWord_of_isBlank hc)]
      | false => rw [List.dropWhile_cons_of_neg (by simp [hc])]
  have hend (s : List Char) : NamesPart (trimEnd s) ↔ NamesPart s := by
    unfold trimEnd
    rw [dropTail_eq_rdropWhile]
    induction s using List.reverseRecOn with
    | nil => rfl
    | append_singleton cs c ih =>
      cases hc : isBlank c with
      | true =>
        rw [List.rdropWhile_concat_pos _ _ _ hc, ih,
          namesPart_concat (Formula.isWord_of_isBlank hc)]
      | false => rw [List.rdropWhile_concat_neg _ _ _ (by simp [hc])]
  exact (hend _).trans (hstart s)

end

/-! ### Sums -/

/-- What stands between the plus signs. -/
def addends (text : String) : List (List Char) := (splitAt (· == '+') text.toList).map trim

/-- The names of a text are those of its parts. -/
lemma namesPart_iff_addends {text : String} :
    NamesPart text.toList ↔ ∃ part ∈ addends text, NamesPart part := by
  have hjoin {qs : List (List Char)} (hne : qs ≠ []) :
      NamesPart (['+'].intercalate qs) ↔ ∃ q ∈ qs, NamesPart q := by
    induction qs with
    | nil => exact absurd rfl hne
    | cons q qs ih =>
      cases qs with
      | nil => simp [List.intercalate_singleton]
      | cons r rs =>
        rw [List.intercalate_cons_cons, List.append_assoc, List.singleton_append, namesPart_plus,
          ih (List.cons_ne_nil r rs)]
        simp
  have hne : splitAt (· == '+') text.toList ≠ [] := by
    obtain ⟨r, rs, h, -⟩ := exists_splitAt (· == '+') text.toList
    rw [h]
    exact List.cons_ne_nil r rs
  have := hjoin hne
  rw [intercalate_splitAt] at this
  simp [this, addends, namesPart_trim]

def partTerm? (hint : Option String) (part : List Char) : Option Term :=
  (component? hint part).bind Component.term?

lemma component?_rate? (hint : Option String) (part : List Char) :
    (component? hint part).bind Component.rate? = percentComponent? part := by
  unfold component?
  cases percentComponent? part with
  | some rate => rfl
  | none => cases specific? (String.ofList part) hint <;> rfl

/-- A part is one of the two, never both. -/
lemma not_percent_and_specific {part : List Char} {hint : Option String} {rate : Float} {t : Term}
    (hr : percentComponent? part = some rate) (ht : specific? (String.ofList part) hint = some t) :
    False := by
  obtain ⟨numeral, htold⟩ := told_of_specific? ht
  rw [String.toList_ofList] at htold
  obtain ⟨follow, hreads, -, hfollow⟩ := htold.follow
  simp only [percentComponent?, percentHead, Option.bind_eq_bind, Option.bind_eq_some_iff] at hr
  obtain ⟨_, ⟨⟨n, rest⟩, hn, mark, hm, -⟩, -⟩ := hr
  obtain ⟨-, rfl⟩ := hreads.unique (reads_of_takeNumeral hn)
  have hm : percentMark (trimStart rest) = some mark := hm
  unfold toldBy at hfollow
  rw [hm, Option.isSome_some, if_pos rfl] at hfollow
  split_ifs at hfollow

lemma compound?_eq_some_iff {text : String} {hint : Option String} {s : Shape} :
    compound? text hint = some s ↔ ¬NamesPart text.toList ∧
      ((addends text).length = 2 ∨ (addends text).length = 3) ∧
      (∀ part ∈ addends text, (component? hint part).isSome = true) ∧
      ∃ rate, (addends text).filterMap percentComponent? = [rate] ∧
        s = .compound rate ((addends text).filterMap (partTerm? hint)) := by
  have hparts : (splitAt (· == '+') text.toList).map trim = addends text := rfl
  have hpercent : (fun part => (component? hint part).bind Component.rate?) = percentComponent? :=
    funext (component?_rate? hint)
  unfold compound?
  dsimp only
  rw [hparts]
  constructor
  · intro h
    split_ifs at h with hbad
    simp only [Bool.or_eq_true, decide_eq_true_eq, not_or, namesPart_iff] at hbad
    obtain ⟨⟨hname, htwo⟩, hthree⟩ := hbad
    obtain ⟨cs, hcs, h⟩ := Option.bind_eq_some_iff.mp h
    rw [mapM_eq_some_iff] at hcs
    have hrates := filterMap_of_map_eq hcs Component.rate?
    rw [hpercent] at hrates
    split at h
    next rate hrate =>
      cases h
      refine ⟨hname, by omega, isSome_of_map_eq hcs, rate, hrates ▸ hrate, ?_⟩
      exact congrArg _ (filterMap_of_map_eq hcs Component.term?)
    next => cases h
  · rintro ⟨hname, hlength, hall, rate, hrate, rfl⟩
    have hbad : ¬(namesPart text.toList || decide ((addends text).length < 2) ||
        decide (3 < (addends text).length)) = true := by
      simp only [Bool.or_eq_true, decide_eq_true_eq, not_or, namesPart_iff]
      exact ⟨⟨hname, by omega⟩, by omega⟩
    have hcs := map_filterMap_of_isSome hall
    have hrates := filterMap_of_map_eq hcs Component.rate?
    rw [hpercent, hrate] at hrates
    rw [if_neg hbad, Option.bind_eq_bind, mapM_eq_some_iff.mpr hcs, Option.bind_some, hrates]
    exact congrArg (fun ts => some (Shape.compound rate ts))
      (filterMap_of_map_eq hcs Component.term?)

lemma partTerm?_of_percent {part : List Char} {hint : Option String} {rate : Float}
    (h : percentComponent? part = some rate) : partTerm? hint part = none := by
  unfold partTerm? component?
  rw [h]
  rfl

lemma component?_of_not_percent {part : List Char} (h : percentComponent? part = none)
    (hint : Option String) : component? hint part =
      (specific? (String.ofList part) hint).map Component.specific := by
  unfold component?
  rw [h]

lemma partTerm?_of_not_percent {part : List Char} (h : percentComponent? part = none)
    (hint : Option String) : partTerm? hint part = specific? (String.ofList part) hint := by
  unfold partTerm?
  rw [component?_of_not_percent h]
  cases specific? (String.ofList part) hint <;> rfl

lemma filterMap_partTerm? {part : List Char} {rate : Float} (h : percentComponent? part = some rate)
    (hint : Option String) (before after : List (List Char)) :
    (before ++ part :: after).filterMap (partTerm? hint) =
      (before ++ after).filterMap (partTerm? hint) := by
  rw [List.filterMap_append, List.filterMap_append,
    List.filterMap_cons_none (partTerm?_of_percent h)]

/-- A text is a sum of a percentage and specific rates, these in the order of the text. -/
structure IsSum (text : String) (hint : Option String) (rate : Float) (terms : List Term) :
    Prop where
  no_name : ¬NamesPart text.toList
  two_or_three : (addends text).length = 2 ∨ (addends text).length = 3
  parts : ∃ before part after, addends text = before ++ part :: after ∧
    percentComponent? part = some rate ∧
    (∀ other ∈ before ++ after, percentComponent? other = none) ∧
    (before ++ after).map (fun other => specific? (String.ofList other) hint) = terms.map some

lemma compound?_eq_some_iff_isSum {text : String} {hint : Option String} {s : Shape} :
    compound? text hint = some s ↔
      ∃ rate terms, s = .compound rate terms ∧ IsSum text hint rate terms := by
  rw [compound?_eq_some_iff]
  constructor
  · rintro ⟨hname, hlength, hall, rate, hrate, rfl⟩
    refine ⟨rate, _, rfl, hname, hlength, ?_⟩
    obtain ⟨before, part, after, hparts, hbefore, hpart, hafter⟩ :=
      List.filterMap_eq_cons_iff.mp hrate
    rw [List.filterMap_eq_nil_iff] at hafter
    have hother : ∀ other ∈ before ++ after, percentComponent? other = none :=
      List.forall_mem_append.mpr ⟨hbefore, hafter⟩
    refine ⟨before, part, after, hparts, hpart, hother, ?_⟩
    have hterm : ∀ other ∈ before ++ after,
        specific? (String.ofList other) hint = partTerm? hint other :=
      fun other hmem => (partTerm?_of_not_percent (hother other hmem) hint).symm
    have hsome : ∀ other ∈ before ++ after, (partTerm? hint other).isSome = true := by
      intro other hmem
      have := hall other (hparts ▸ List.perm_middle.mem_iff.mpr (List.mem_cons_of_mem part hmem))
      rw [component?_of_not_percent (hother other hmem), Option.isSome_map] at this
      rwa [← hterm other hmem]
    rw [List.map_congr_left hterm, map_filterMap_of_isSome hsome, hparts, filterMap_partTerm? hpart]
  · rintro ⟨rate, terms, rfl, hname, hlength, before, part, after, hparts, hpart, hother, hterms⟩
    have hsome := isSome_of_map_eq hterms
    have hall : ∀ part ∈ addends text, (component? hint part).isSome = true := by
      intro p hp
      rw [hparts] at hp
      rcases List.mem_cons.mp (List.perm_middle.mem_iff.mp hp) with rfl | hmem
      · unfold component?
        rw [hpart]
        rfl
      · rw [component?_of_not_percent (hother p hmem), Option.isSome_map]
        exact hsome p hmem
    obtain ⟨hbefore, hafter⟩ := List.forall_mem_append.mp hother
    refine ⟨hname, hlength, hall, rate, ?_, ?_⟩
    · rw [hparts]
      exact List.filterMap_eq_cons_iff.mpr ⟨before, part, after, rfl, hbefore, hpart,
        List.filterMap_eq_nil_iff.mpr hafter⟩
    · have hterm : ∀ other ∈ before ++ after, (specific? (String.ofList other) hint).bind some =
          partTerm? hint other := fun other hmem => by
        rw [partTerm?_of_not_percent (hother other hmem), Option.bind_fun_some]
      have := filterMap_of_map_eq hterms some
      rw [List.filterMap_congr hterm, List.filterMap_some] at this
      rw [this, hparts, filterMap_partTerm? hpart]

/-! ### Any order -/

section

variable {text text' : String} {hint : Option String}

/-- Only the rule for sums knows a text with a plus sign. -/
lemma parse?_of_plus (hplus : '+' ∈ text.toList) (hfree : isFree text = false) :
    parse? text hint = compound? text hint := by
  have hnone {r : Rule} (hr : r.family ≠ .compound) : r.shape? text hint = none := by
    cases h : r.shape? text hint with
    | none => rfl
    | some s =>
      have hfamily := (told_of_shape? h).2.1
      unfold familyOf at hfamily
      rw [if_pos hplus] at hfamily
      exact absurd hfamily.symm hr
  have hlast : compound? text hint = Rule.compound.shape? text hint := rfl
  rw [parse?_eq, hfree, hlast]
  simp only [Rule.all, List.findSome?_cons, List.findSome?_nil]
  rw [hnone (r := .explicit) (by decide), hnone (r := .simple) (by decide),
    hnone (r := .specific) (by decide), hnone (r := .range) (by decide)]
  cases Rule.compound.shape? text hint <;> rfl

lemma isFree_of_plus (hplus : '+' ∈ text.toList) (hfree : literal "free" text.toList = none) :
    isFree text = false := by
  have hlist : ∀ t ∈ ["none", "0", "0%"], '+' ∉ t.toList := by decide
  unfold isFree
  rw [hfree, Option.isSome_none, Bool.or_false, Bool.eq_false_iff]
  intro h
  exact hlist text (by simpa using h) hplus

/-- A text with a plus sign has more parts than one. -/
lemma plus_mem_iff : '+' ∈ text.toList ↔ (addends text).length ≠ 1 := by
  unfold addends
  rw [List.length_map]
  constructor
  · intro hplus hone
    obtain ⟨q, hq⟩ := List.length_eq_one_iff.mp hone
    have htext := intercalate_splitAt '+' text.toList
    rw [hq, List.intercalate_singleton] at htext
    have hmem : q ∈ splitAt (· == '+') text.toList := by
      rw [hq]
      exact List.mem_singleton_self q
    exact separator_notMem hmem (htext ▸ hplus)
  · intro hlength
    by_contra hplus
    refine hlength ?_
    rw [splitAt_of_not fun c hc => beq_eq_false_iff_ne.mpr (by rintro rfl; exact hplus hc)]
    rfl

/-- A sum stays one when its parts change places. -/
lemma compound?_of_perm (h : (addends text').Perm (addends text)) {rate : Float} {terms : List Term}
    (hc : compound? text hint = some (.compound rate terms)) :
    terms = (addends text).filterMap (partTerm? hint) ∧
      compound? text' hint =
        some (.compound rate ((addends text').filterMap (partTerm? hint))) := by
  obtain ⟨hname, hlength, hall, rate', hrate, hs⟩ := compound?_eq_some_iff.mp hc
  cases hs
  refine ⟨rfl, compound?_eq_some_iff.mpr ⟨?_, ?_, ?_, rate, ?_, rfl⟩⟩
  · rw [namesPart_iff_addends] at hname ⊢
    rintro ⟨part, hpart, hn⟩
    exact hname ⟨part, h.mem_iff.mp hpart, hn⟩
  · rwa [h.length_eq]
  · exact fun part hpart => hall part (h.mem_iff.mp hpart)
  · have := h.filterMap percentComponent?
    rwa [hrate, List.perm_singleton] at this

lemma vars_of_perm {rate : Float} {terms terms' : List Term} (h : terms'.Perm terms) :
    (Shape.compound rate terms').vars = (Shape.compound rate terms).vars :=
  Formula.canonical_congr fun _ => ((h.map Term.per).cons .value).mem_iff

lemma addends_intercalate {parts : List (List Char)} (h : parts.Perm (addends text)) :
    addends (String.ofList (['+'].intercalate parts)) = parts := by
  have hne : parts ≠ [] := by
    obtain ⟨r, rs, hr, -⟩ := exists_splitAt (· == '+') text.toList
    rintro rfl
    have := h.length_eq
    rw [addends, hr] at this
    cases this
  have hpart : ∀ part ∈ parts, '+' ∉ part ∧ trim part = part := by
    intro part hp
    obtain ⟨q, hq, rfl⟩ := List.mem_map.mp (h.mem_iff.mp hp)
    exact ⟨fun hplus => separator_notMem hq (mem_of_mem_trim hplus), (trimmed_trim q).trim_eq⟩
  unfold addends
  rw [String.toList_ofList, splitAt_intercalate hne fun part hp => (hpart part hp).1,
    List.map_congr_left fun part hp => (hpart part hp).2, List.map_id']

end

structure InAnyOrder (text : String) (hint : Option String) : Prop where
  /-- The text is known exactly if it is a sum, and then as what it sums. -/
  known : ∀ s, parse? text hint = some s ↔
    ∃ rate terms, s = .compound rate terms ∧ IsSum text hint rate terms
  /-- No part is both a percentage and a specific rate. -/
  one_kind : ∀ part rate t, percentComponent? part = some rate →
    specific? (String.ofList part) hint ≠ some t
  /-- With its parts in another order a sum has the same rate, and the terms go with the parts. -/
  any_order : ∀ text' rate terms, (addends text').Perm (addends text) →
    parse? text hint = some (.compound rate terms) → ∃ terms',
      parse? text' hint = some (.compound rate terms') ∧
      terms = (addends text).filterMap (partTerm? hint) ∧
      terms' = (addends text').filterMap (partTerm? hint) ∧ terms'.Perm terms ∧
      (Shape.compound rate terms').vars = (Shape.compound rate terms).vars ∧
      (Shape.compound rate terms').confidence = (Shape.compound rate terms).confidence
  /-- A text that is not known is not known in another order, unless that begins with `free`. -/
  refused : ∀ text', (addends text').Perm (addends text) → literal "free" text'.toList = none →
    parse? text hint = none → parse? text' hint = none
  /-- There is a text for every order. -/
  orders : ∀ parts, parts.Perm (addends text) →
    addends (String.ofList (['+'].intercalate parts)) = parts

/-- **A rate with plus signs is a sum, in any order**, or it is not known. -/
theorem sum_in_any_order {text : String} (hplus : '+' ∈ text.toList)
    (hfree : literal "free" text.toList = none) (hint : Option String) : InAnyOrder text hint := by
  have hparse : parse? text hint = compound? text hint :=
    parse?_of_plus hplus (isFree_of_plus hplus hfree)
  have hplus' {text' : String} (h : (addends text').Perm (addends text)) : '+' ∈ text'.toList := by
    rw [plus_mem_iff, h.length_eq]
    exact plus_mem_iff.mp hplus
  constructor
  case known =>
    intro s
    rw [hparse]
    exact compound?_eq_some_iff_isSum
  case one_kind => exact fun part rate t hr ht => not_percent_and_specific hr ht
  case any_order =>
    intro text' rate terms h hs
    rw [hparse] at hs
    obtain ⟨hterms, hc⟩ := compound?_of_perm h hs
    have hnot : isFree text' = false := by
      rw [Bool.eq_false_iff]
      intro hf
      have := eq_of_isFree (r := .compound) hf hc
      exact absurd (hplus' h) (by rw [this]; decide)
    have hperm : ((addends text').filterMap (partTerm? hint)).Perm terms := by
      rw [hterms]
      exact h.filterMap _
    refine ⟨_, ?_, hterms, rfl, hperm, vars_of_perm hperm, rfl⟩
    rw [parse?_of_plus (hplus' h) hnot, hc]
  case refused =>
    intro text' h hfree' hnone
    rw [hparse] at hnone
    rw [parse?_of_plus (hplus' h) (isFree_of_plus (hplus' h) hfree')]
    cases hc : compound? text' hint with
    | none => rfl
    | some s =>
      obtain ⟨rate, terms, rfl, -⟩ := compound?_eq_some_iff_isSum.mp hc
      rw [(compound?_of_perm h.symm hc).2] at hnone
      cases hnone
  case orders => exact fun parts h => addends_intercalate h

theorem sum_in_any_order_three :
    '+' ∈ "25¢/kg + 5% + $1.50 each".toList ∧
      literal "free" "25¢/kg + 5% + $1.50 each".toList = none ∧
      addends "25¢/kg + 5% + $1.50 each" = ["25¢/kg".toList, "5%".toList, "$1.50 each".toList] ∧
      (parse? "25¢/kg + 5% + $1.50 each" none).isSome = true ∧
      InAnyOrder "25¢/kg + 5% + $1.50 each" none :=
  ⟨by decide, by decide, by decide, by decide +kernel,
    sum_in_any_order (by decide) (by decide) none⟩

end Tariff.Rate
