import Tariff.Proofs.Rate.Abbreviations

/-!
Amounts and separators as they are written. Both have several spellings, and where one ends and the
next begins can be seen from the characters alone. So the first way in which an amount is read is
what was written, and a separator is passed over up to what follows it.
-/

namespace Tariff.Rate

open Tariff.Text

/-! ### Spellings -/

/-- The spellings of an amount in dollars or, where the flag says so, in cents. -/
inductive PriceText (a : List Char) : Bool → List Char → Prop where
  | bare : PriceText a false a
  | dollars {b : List Char} (hb : Blanks b) : PriceText a false ('$' :: (b ++ a))
  | cents {b : List Char} (hb : Blanks b) : PriceText a true ('¢' :: (b ++ a))
  | marked {b : List Char} {m : String} (hb : Blanks b) (hm : m ∈ centMarks) :
      PriceText a true (a ++ (b ++ m.toList))

def inDollars (cents : Bool) (x : Float) : Float := if cents then x / 100 else x

/-- A slash, or the word `per` with blanks around it. -/
inductive SeparatorText : List Char → Prop where
  | slash {b b' : List Char} (hb : Blanks b) (hb' : Blanks b') : SeparatorText (b ++ '/' :: b')
  | per {b b' : List Char} (hne : b ≠ []) (hb : Blanks b) (hne' : b' ≠ []) (hb' : Blanks b') :
      SeparatorText (b ++ ("per".toList ++ b'))

/-! ### Characters -/

lemma classes_of_isUnitStart {c : Char} (h : isUnitStart c = true) :
    isNumeralChar c = false ∧ isBlank c = false ∧ isUnitChar c = true := by
  have hlt : c.toNat < 128 := by
    unfold isUnitStart at h
    rw [Bool.and_eq_true, decide_eq_true_eq, decide_eq_true_eq] at h
    have : c.toNat ≤ 122 := toNat_le_of_le h.2
    omega
  revert h
  exact forall_ascii (P := fun c => isUnitStart c = true →
    isNumeralChar c = false ∧ isBlank c = false ∧ isUnitChar c = true) (by decide) hlt

lemma isUnitStart_of_isBlank {c : Char} (h : isBlank c = true) : isUnitStart c = false := by
  by_contra hc
  rw [(classes_of_isUnitStart (Bool.of_not_eq_false hc)).2.1] at h
  cases h

lemma isUnitStart_of_isNumeralChar {c : Char} (h : isNumeralChar c = true) :
    isUnitStart c = false := by
  by_contra hc
  rw [(classes_of_isUnitStart (Bool.of_not_eq_false hc)).1] at h
  cases h

lemma isUnitChar_of_isBlank {c : Char} (h : isBlank c = true) : isUnitChar c = false := by
  have hdigit : isAsciiDigit c = false := by
    by_contra hc
    have hc : Formula.isNumberChar c = true := by
      unfold Formula.isNumberChar
      rw [Bool.of_not_eq_false hc]
      rfl
    rw [Formula.isBlank_of_isNumberChar hc] at h
    cases h
  unfold isUnitChar
  rw [isUnitStart_of_isBlank h, hdigit]
  simp only [Bool.false_or, Bool.or_eq_false_iff, beq_eq_false_iff_ne]
  exact ⟨⟨ne_of_isBlank h (by decide), ne_of_isBlank h (by decide)⟩, ne_of_isBlank h (by decide)⟩

lemma any_head?_of_border {p : Char → Bool} (hblank : ∀ c, isBlank c = true → p c = false)
    (hslash : p '/' = false) {s : List Char}
    (h : s.head?.any (fun c => isBlank c || c == '/') = true) : s.head?.any p = false := by
  refine any_head?_of_imp (fun c hc => ?_) h
  rcases Bool.or_eq_true_iff.mp hc with hc | hc
  · exact hblank c hc
  · rwa [eq_of_beq hc]

lemma trimStart_append_cons {c : Char} (hc : isBlank c = false) (s t : List Char) :
    trimStart (s ++ c :: t) = trimStart s ++ c :: t := by
  unfold trimStart
  induction s with
  | nil => exact List.dropWhile_cons_of_neg (by simp [hc])
  | cons d ds ih =>
    rw [List.cons_append]
    cases hd : isBlank d with
    | true => rw [List.dropWhile_cons_of_pos hd, List.dropWhile_cons_of_pos hd, ih]
    | false =>
      rw [List.dropWhile_cons_of_neg (by simp [hd]), List.dropWhile_cons_of_neg (by simp [hd]),
        List.cons_append]

/-! ### Separators -/

namespace SeparatorText

variable {s t : List Char}

lemma trimStart_eq (hs : SeparatorText s) (t : List Char) :
    (∃ b', Blanks b' ∧ trimStart (s ++ t) = '/' :: (b' ++ t)) ∨
      ∃ b', b' ≠ [] ∧ Blanks b' ∧ trimStart (s ++ t) = "per".toList ++ (b' ++ t) := by
  cases hs with
  | slash hb hb' =>
    refine .inl ⟨_, hb', ?_⟩
    rw [List.append_assoc, List.cons_append]
    exact trimStart_append hb rfl
  | per _ hb hne' hb' =>
    refine .inr ⟨_, hne', hb', ?_⟩
    rw [List.append_assoc, List.append_assoc]
    exact trimStart_append hb rfl

/-- A separator begins with a slash or a blank. -/
lemma head? (hs : SeparatorText s) (t : List Char) :
    (s ++ t).head?.any (fun c => isBlank c || c == '/') = true := by
  have hblank {b : List Char} (hb : Blanks b) (hne : b ≠ []) (t : List Char) :
      (b ++ t).head?.any (fun c => isBlank c || c == '/') = true := by
    obtain ⟨c, cs, rfl⟩ := List.exists_cons_of_ne_nil hne
    have hc : isBlank c = true := hb c List.mem_cons_self
    change (isBlank c || c == '/') = true
    rw [hc, Bool.true_or]
  cases hs with
  | @slash b b' hb hb' =>
    rw [List.append_assoc]
    rcases eq_or_ne b [] with rfl | hne
    · rfl
    · exact hblank hb hne _
  | per hne hb _ _ =>
    rw [List.append_assoc]
    exact hblank hb hne _

lemma isEmpty_append (hs : SeparatorText s) (t : List Char) : (s ++ t).isEmpty = false := by
  have hhead := hs.head? t
  cases h : s ++ t with
  | nil =>
    rw [h] at hhead
    cases hhead
  | cons => rfl

lemma separator_eq (hs : SeparatorText s) (ht : t.head?.any isBlank = false)
    (before : Option Char) : separator before (s ++ t) = some t := by
  have hboundary {b' : List Char} (hne' : b' ≠ []) (hb' : Blanks b') :
      atBoundary (some 'r') (b' ++ t) = true :=
    (atBoundary_some_iff (by decide)).mpr
      (any_head?_of_imp (fun _ => Formula.isWord_of_isBlank) (hb'.any_head? hne' t))
  unfold separator
  dsimp only
  cases hs with
  | @slash b b' hb hb' =>
    have hstart : trimStart (b ++ '/' :: b' ++ t) = '/' :: (b' ++ t) := by
      rw [List.append_assoc]
      exact trimStart_append hb rfl
    have hslash : literal "/" ('/' :: (b' ++ t)) = some (b' ++ t) := literal_eq_some_iff.mpr rfl
    rw [hstart, hslash]
    exact congrArg some (trimStart_append hb' ht)
  | @per b b' hne hb hne' hb' =>
    have hstart : trimStart (b ++ ("per".toList ++ b') ++ t) = "per".toList ++ (b' ++ t) := by
      rw [List.append_assoc, List.append_assoc]
      exact trimStart_append hb rfl
    have hslash : literal "/" ("per".toList ++ (b' ++ t)) = none := rfl
    obtain ⟨c, cs, rfl⟩ := List.exists_cons_of_ne_nil hne
    have hc : isBlank c = true := hb c List.mem_cons_self
    have hbefore : (if (c :: cs ++ ("per".toList ++ b') ++ t).head?.any isBlank = true
        then (c :: cs ++ ("per".toList ++ b') ++ t).head? else before) = some c := if_pos hc
    have hword : wholeWord "per" (some c) ("per".toList ++ (b' ++ t)) = some (b' ++ t) :=
      wholeWord_eq_some_iff.mpr ⟨⟨(atBoundary_iff rfl).mpr (Formula.isWord_of_isBlank hc), rfl⟩,
        hboundary hne' hb'⟩
    rw [hstart, hslash, hbefore, hword]
    exact congrArg some (trimStart_append hb' ht)

lemma exists_mem_trimStart (hs : SeparatorText s) (x t : List Char) :
    ∃ c ∈ trimStart (x ++ (s ++ t)), isUnitStart c = false := by
  cases hs with
  | @slash b b' hb hb' =>
    refine ⟨'/', ?_, by decide⟩
    have h : x ++ (b ++ '/' :: b' ++ t) = (x ++ b) ++ '/' :: (b' ++ t) := by simp
    rw [h, trimStart_append_cons (by decide)]
    simp
  | @per b b' hne hb hne' hb' =>
    obtain ⟨c, cs, rfl⟩ := List.exists_cons_of_ne_nil hne'
    refine ⟨c, ?_, isUnitStart_of_isBlank (hb' c List.mem_cons_self)⟩
    have h : x ++ (b ++ ("per".toList ++ c :: cs) ++ t) =
        (x ++ b) ++ 'p' :: ("er".toList ++ (c :: cs ++ t)) := by simp
    rw [h, trimStart_append_cons (by decide)]
    simp

end SeparatorText

lemma separator_trimStart (before : Option Char) (text : List Char) :
    separator (if text.head?.any isBlank then text.head? else before) (trimStart text) =
      separator before text := by
  have hhead : (trimStart text).head?.any isBlank = false := head?_dropWhile isBlank text
  have htwice : trimStart (trimStart text) = trimStart text := dropWhile_of_head? hhead
  unfold separator
  dsimp only
  rw [htwice, hhead]
  rfl

lemma separator_eq_none {text : List Char}
    (h : (trimStart text).head?.any (fun c => c == '/' || c == 'p') = false)
    (before : Option Char) : separator before text = none := by
  have hnone {s : List Char} (hs : s.head?.any (fun c => c == '/' || c == 'p') = true)
      (rest : List Char) : trimStart text ≠ s ++ rest := by
    intro heq
    rw [heq] at h
    cases s with
    | nil => cases hs
    | cons c cs =>
      have hs : (c == '/' || c == 'p') = true := hs
      have h : (c == '/' || c == 'p') = false := h
      rw [hs] at h
      cases h
  cases hsep : separator before text with
  | none => rfl
  | some t =>
    simp only [separator, Option.orElse_eq_orElse, Option.orElse_eq_or, Option.map_eq_some_iff,
      Option.or_eq_some_iff, literal_eq_some_iff, wholeWord_eq_some_iff] at hsep
    obtain ⟨rest, heq | ⟨-, ⟨-, heq⟩, -⟩, -⟩ := hsep
    · exact absurd heq (hnone rfl rest)
    · exact absurd heq (hnone rfl rest)

/-! ### Amounts -/

def pricesBehind (cents : Bool) (text : List Char) : List (Price × Option Char × List Char) :=
  match takeNumeral (trimStart text) with
  | none => []
  | some (numeral, rest) =>
    centMarks.filterMap (fun m => (literal m (trimStart rest)).map fun r =>
      (⟨numeral, true⟩, m.toList.getLast?, r)) ++ [(⟨numeral, cents⟩, numeral.getLast?, rest)]

lemma prices_dollar (text : List Char) : prices ('$' :: text) = pricesBehind false text := rfl

lemma prices_cent (text : List Char) : prices ('¢' :: text) = pricesBehind true text := rfl

lemma prices_of_ne {c : Char} (hd : c ≠ '$') (hc : c ≠ '¢') (cs : List Char) :
    prices (c :: cs) = pricesBehind false (c :: cs) := by
  unfold prices
  split
  next cents body hbody =>
    split at hbody
    next h => exact absurd (List.cons.inj h).1 hd
    next h => exact absurd (List.cons.inj h).1 hc
    next => cases hbody; rfl

def isMarkStart (c : Char) : Bool := c == 'c' || c == '¢'

lemma classes_of_isMarkStart {c : Char} (h : isMarkStart c = true) :
    isBlank c = false ∧ isNumeralChar c = false := by
  rcases Bool.or_eq_true_iff.mp h with h | h
  · rw [eq_of_beq h]
    decide
  · rw [eq_of_beq h]
    decide

lemma head?_centMark {m : String} (hm : m ∈ centMarks) (t : List Char) :
    (m.toList ++ t).head?.any isMarkStart = true := by
  have hall : ∀ m ∈ centMarks, m.toList.head?.any isMarkStart = true := by decide
  exact any_head?_append (hall m hm) t

/-- What may follow an amount: a blank or a slash, and then no mark for cents. -/
structure Follows (rest : List Char) : Prop where
  head : rest.head?.any (fun c => isBlank c || c == '/') = true
  mark : (trimStart rest).head?.any isMarkStart = false

lemma SeparatorText.follows {s : List Char} (hs : SeparatorText s) (t : List Char) :
    Follows (s ++ t) where
  head := hs.head? t
  mark := by
    rcases hs.trimStart_eq t with ⟨b', -, h⟩ | ⟨b', -, -, h⟩
    · rw [h]
      rfl
    · rw [h]
      rfl

namespace Follows

variable {rest : List Char}

lemma isNumeralChar_head? (h : Follows rest) : rest.head?.any isNumeralChar = false :=
  any_head?_of_border (fun _ => isNumeralChar_of_isBlank) (by decide) h.head

lemma literal_eq_none (h : Follows rest) {m : String} (hm : m ∈ centMarks) :
    literal m (trimStart rest) = none := by
  cases hl : literal m (trimStart rest) with
  | none => rfl
  | some r =>
    have hmark := h.mark
    rw [literal_eq_some_iff.mp hl, head?_centMark hm] at hmark
    cases hmark

/-- No mark goes on in what follows another. -/
lemma literal_centMark (h : Follows rest) {m m' : String} (hm' : m' ∈ centMarks) :
    literal m' (m.toList ++ rest) = (literal m' m.toList).map (· ++ rest) := by
  have hink : ∀ m ∈ centMarks, m.toList.all (fun c => !(isBlank c || c == '/')) = true := by
    decide
  cases hl : literal m' m.toList with
  | some r =>
    rw [literal_eq_some_iff] at hl
    rw [Option.map_some, literal_eq_some_iff, hl, List.append_assoc]
  | none =>
    rw [Option.map_none]
    cases hl' : literal m' (m.toList ++ rest) with
    | none => rfl
    | some r =>
      rw [literal_eq_some_iff] at hl'
      rcases List.append_eq_append_iff.mp hl' with ⟨x, hx, hr⟩ | ⟨x, hx, -⟩
      · cases x with
        | nil =>
          rw [List.append_nil] at hx
          rw [literal_eq_some_iff.mpr (by rw [hx, List.append_nil] : m.toList = m'.toList ++ [])]
            at hl
          cases hl
        | cons c cs =>
          have hhead := h.head
          have hc := List.all_eq_true.mp (hink m' hm') c (by rw [hx]; simp)
          rw [hr] at hhead
          rw [Bool.not_eq_true'] at hc
          exact absurd (hhead.symm.trans hc) (by decide)
      · rw [literal_eq_some_iff.mpr hx] at hl
        cases hl

end Follows

/-- A mark is the first that is found in itself; what the others leave of it stays. -/
lemma exists_centMarks {m : String} (hm : m ∈ centMarks) : ∃ others,
    (centMarks.filterMap fun m' => (literal m' m.toList).map fun x => (m'.toList.getLast?, x)) =
      (m.toList.getLast?, []) :: others := by
  have hfirst : ∀ m ∈ centMarks,
      (centMarks.filterMap fun m' => (literal m' m.toList).map fun x =>
        (m'.toList.getLast?, x)).head? = some (m.toList.getLast?, []) := by decide
  obtain ⟨others, h⟩ := List.head?_eq_some_iff.mp (hfirst m hm)
  exact ⟨others, h⟩

section

variable {a b rest : List Char}

lemma pricesBehind_append (cents : Bool) (ha : isNumeral a = true) (hb : Blanks b)
    (hr : rest.head?.any isNumeralChar = false) :
    pricesBehind cents (b ++ (a ++ rest)) =
      centMarks.filterMap (fun m => (literal m (trimStart rest)).map fun r =>
        (⟨a, true⟩, m.toList.getLast?, r)) ++ [(⟨a, cents⟩, a.getLast?, rest)] := by
  obtain ⟨c, cs, hac, hc⟩ := exists_cons_of_isNumeral ha
  have hstart : trimStart (b ++ (a ++ rest)) = a ++ rest := by
    refine trimStart_append hb ?_
    rw [hac]
    exact isBlank_of_isNumeralChar hc
  unfold pricesBehind
  rw [hstart, takeNumeral_append ha hr]

lemma pricesBehind_of_follows (cents : Bool) (ha : isNumeral a = true) (hb : Blanks b)
    (h : Follows rest) :
    pricesBehind cents (b ++ (a ++ rest)) = [(⟨a, cents⟩, a.getLast?, rest)] := by
  rw [pricesBehind_append cents ha hb h.isNumeralChar_head?,
    List.filterMap_eq_nil_iff.mpr fun m hm => by rw [h.literal_eq_none hm]; rfl]
  rfl

lemma prices_bare (ha : isNumeral a = true) (t : List Char) :
    prices (a ++ t) = pricesBehind false (a ++ t) := by
  obtain ⟨c, cs, hac, hc⟩ := exists_cons_of_isNumeral ha
  rw [hac]
  refine prices_of_ne ?_ ?_ (cs ++ t)
  · rintro rfl
    exact absurd hc (by decide)
  · rintro rfl
    exact absurd hc (by decide)

lemma exists_prices_marked {m : String} (hm : m ∈ centMarks) (ha : isNumeral a = true)
    (hb : Blanks b) (h : Follows rest) :
    ∃ others, prices (a ++ (b ++ m.toList) ++ rest) =
        (⟨a, true⟩, m.toList.getLast?, rest) :: others ∧
      ∀ q ∈ others, ∃ x, q.2.2 = x ++ rest := by
  obtain ⟨others, hmarks⟩ := exists_centMarks hm
  have hhead := head?_centMark hm rest
  have hstart : trimStart (b ++ (m.toList ++ rest)) = m.toList ++ rest :=
    trimStart_append hb (any_head?_of_imp (fun _ hc => (classes_of_isMarkStart hc).1) hhead)
  have hr : (b ++ (m.toList ++ rest)).head?.any isNumeralChar = false := by
    rcases eq_or_ne b [] with rfl | hne
    · exact any_head?_of_imp (fun _ hc => (classes_of_isMarkStart hc).2) hhead
    · exact any_head?_of_imp (fun _ => isNumeralChar_of_isBlank) (hb.any_head? hne _)
  have hfound : (centMarks.filterMap fun m' => (literal m' (m.toList ++ rest)).map fun r =>
        ((⟨a, true⟩, m'.toList.getLast?, r) : Price × Option Char × List Char)) =
      (centMarks.filterMap fun m' => (literal m' m.toList).map fun x =>
        (m'.toList.getLast?, x)).map fun q => (⟨a, true⟩, q.1, q.2 ++ rest) := by
    rw [List.map_filterMap]
    refine List.filterMap_congr fun m' hm' => ?_
    rw [h.literal_centMark hm', Option.map_map, Option.map_map]
    rfl
  have hbehind := pricesBehind_append false ha (List.forall_mem_nil _ : Blanks []) hr
  rw [hstart, hfound, hmarks] at hbehind
  refine ⟨others.map (fun q => (⟨a, true⟩, q.1, q.2 ++ rest)) ++
    [(⟨a, false⟩, a.getLast?, b ++ (m.toList ++ rest))], ?_, fun q hq => ?_⟩
  · rw [List.append_assoc, List.append_assoc, prices_bare ha]
    exact hbehind
  · rcases List.mem_append.mp hq with hq | hq
    · obtain ⟨r, -, rfl⟩ := List.mem_map.mp hq
      exact ⟨r.2, rfl⟩
    · rw [List.mem_singleton.mp hq]
      exact ⟨b ++ m.toList, (List.append_assoc ..).symm⟩

/-- The first reading of an amount is what was written, and every other one leaves at least as
much. -/
lemma PriceText.exists_prices {p : List Char} {cents : Bool} (hp : PriceText a cents p)
    (ha : isNumeral a = true) (h : Follows rest) :
    ∃ last others, prices (p ++ rest) = (⟨a, cents⟩, last, rest) :: others ∧
      ∀ q ∈ others, ∃ x, q.2.2 = x ++ rest := by
  cases hp with
  | bare =>
    refine ⟨a.getLast?, [], ?_, by simp⟩
    rw [prices_bare ha]
    exact pricesBehind_of_follows false ha (List.forall_mem_nil _) h
  | dollars hb =>
    refine ⟨a.getLast?, [], ?_, by simp⟩
    rw [List.cons_append, List.append_assoc, prices_dollar, pricesBehind_of_follows false ha hb h]
  | cents hb =>
    refine ⟨a.getLast?, [], ?_, by simp⟩
    rw [List.cons_append, List.append_assoc, prices_cent, pricesBehind_of_follows true ha hb h]
  | marked hb hm => exact ⟨_, exists_prices_marked hm ha hb h⟩

end

end Tariff.Rate
