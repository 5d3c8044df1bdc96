import Tariff.Proofs.Formula.Pieces
import Tariff.Proofs.Rate.Readers
import Tariff.Proofs.Text.Squeeze
import Tariff.Rate.Normal

/-!
The abbreviations that the normal form spells out. For each it is said what its pattern takes and
what it changes: a word or two, and a look at the character behind.
-/

namespace Tariff.Rate

open Tariff.Text

lemma ne_of_isBlank {b c : Char} (hb : isBlank b = true) (hc : isBlank c = false) : b ≠ c := by
  rintro rfl
  rw [hb] at hc
  cases hc

lemma shields_blanks {h : Char} {before : Option Char} {b s t : List Char}
    (hh : isBlank h = false) (hb : ∀ c ∈ b, isBlank c = true) (hs : shields h before s = true)
    (ht : shields h none t = true) : shields h before (s ++ (b ++ t)) = true := by
  rw [shields_append, shields_append]
  exact ⟨hs, shields_of_forall fun c hc => ne_of_isBlank (hb c hc) hh, shields_of_none ht⟩

/-! ### Number -/

lemma numberSign_eq_some_iff {before : Option Char} {text rest : List Char} {u : Unit} :
    numberSign before text = some (u, rest) ↔
      before.any isWord = false ∧ text = "no.".toList ++ rest := by
  simp only [numberSign, Option.bind_eq_bind, Option.bind_eq_some_iff, Option.some.injEq,
    Prod.mk.injEq, wordStart_eq_some_iff, true_and, exists_eq_right]
  refine and_congr_left fun h => ?_
  subst h
  exact atBoundary_iff rfl

lemma headed_numberSign : numberSign.Headed 'n' where
  word := by decide
  takes before text u rest h := by
    obtain ⟨hb, rfl⟩ := numberSign_eq_some_iff.mp h
    exact ⟨hb, ['o', '.'], rfl, by decide⟩

def numberText (l : List Char) (_ : Option Char) : Prop := l = "no.".toList

lemma changes_numberSign_iff {before : Option Char} {text : List Char} :
    numberSign.Changes "number".toList before text ↔ Found numberText before text := by
  constructor
  · rintro ⟨u, m, rest, h, rfl, -⟩
    obtain ⟨hb, h⟩ := numberSign_eq_some_iff.mp h
    exact ⟨hb, _, rest, h, rfl⟩
  · rintro ⟨hb, l, rest, rfl, rfl⟩
    exact ⟨(), _, rest, numberSign_eq_some_iff.mpr ⟨hb, rfl⟩, rfl, by decide⟩

/-! ### Percent -/

def twoWords (v w : String) : Pattern Unit := fun before text => do
  let rest ← wholeWord w (some ' ') (← someBlanks (← wordStart v before text))
  some ((), rest)

lemma twoWords_eq_some_iff {v w : String} (hv : v.toList.head?.any isWord = true)
    (hw : w.toList.head?.any isWord = true) (hw' : w.toList.getLast?.any isWord = true)
    {before : Option Char} {text rest : List Char} {u : Unit} :
    twoWords v w before text = some (u, rest) ↔ before.any isWord = false ∧
      ∃ b, b ≠ [] ∧ (∀ c ∈ b, isBlank c = true) ∧
        text = v.toList ++ (b ++ (w.toList ++ rest)) ∧ rest.head?.any isWord = false := by
  obtain ⟨c, hc, hcw⟩ : ∃ c, w.toList.getLast? = some c ∧ isWord c = true := by
    cases h : w.toList.getLast? with
    | none => rw [h] at hw'; cases hw'
    | some c => exact ⟨c, rfl, by rwa [h] at hw'⟩
  have hend {t : List Char} : atBoundary w.toList.getLast? t = true ↔
      t.head?.any isWord = false := by rw [hc, atBoundary_some_iff hcw]
  simp only [twoWords, Option.bind_eq_bind, Option.bind_eq_some_iff, Option.some.injEq,
    Prod.mk.injEq, true_and, wordStart_eq_some_iff, someBlanks_eq_some_iff, wholeWord_eq_some_iff]
  constructor
  · rintro ⟨r, ⟨hb, rfl⟩, _, ⟨hblank, rfl⟩, _, ⟨⟨-, hsecond⟩, hr⟩, rfl⟩
    obtain ⟨b, hblanks, heq⟩ := exists_blanks r
    rw [hsecond] at heq
    refine ⟨(atBoundary_iff (any_head?_append hv _)).mp hb, b, ?_, hblanks, by rw [← heq],
      hend.mp hr⟩
    rintro rfl
    have hink := head?_dropWhile isBlank r
    have hr : trimStart r = r := by rw [hsecond, heq]; rfl
    unfold trimStart at hr
    rw [hr, hblank] at hink
    cases hink
  · rintro ⟨hb, b, hne, hblanks, rfl, hr⟩
    have hink : (w.toList ++ rest).head?.any isBlank = false := by
      refine any_head?_of_imp (fun c hc => ?_) (any_head?_append hw rest)
      by_contra hblank
      rw [Formula.isWord_of_isBlank (Bool.of_not_eq_false hblank)] at hc
      cases hc
    refine ⟨_, ⟨(atBoundary_iff (any_head?_append hv _)).mpr hb, rfl⟩, _,
      ⟨?_, trimStart_append hblanks hink⟩, rest,
      ⟨⟨(atBoundary_iff (any_head?_append hw rest)).mpr rfl, rfl⟩, hend.mpr hr⟩, rfl⟩
    obtain ⟨d, ds, rfl⟩ := List.exists_cons_of_ne_nil hne
    exact hblanks d List.mem_cons_self

lemma perCent_eq_some_iff {before : Option Char} {text rest : List Char} {u : Unit} :
    perCent before text = some (u, rest) ↔ before.any isWord = false ∧
      ∃ b, b ≠ [] ∧ (∀ c ∈ b, isBlank c = true) ∧
        text = "per".toList ++ (b ++ ("cent".toList ++ rest)) ∧ rest.head?.any isWord = false :=
  twoWords_eq_some_iff (v := "per") (w := "cent") (by decide) (by decide) (by decide)

lemma headed_perCent : perCent.Headed 'p' where
  word := by decide
  takes before text u rest h := by
    obtain ⟨hb, b, -, hblanks, rfl, -⟩ := perCent_eq_some_iff.mp h
    refine ⟨hb, ['e', 'r'] ++ (b ++ "cent".toList), by simp, shields_of_forall fun c hc => ?_⟩
    rcases List.mem_append.mp hc with hc | hc
    · exact forall_mem_of_all (by decide : ['e', 'r'].all (fun c => decide (c ≠ 'p')) = true) c hc
    · rcases List.mem_append.mp hc with hc | hc
      · exact ne_of_isBlank (hblanks c hc) (by decide)
      · exact forall_mem_of_all
          (by decide : "cent".toList.all (fun c => decide (c ≠ 'p')) = true) c hc

def perCentText (l : List Char) (behind : Option Char) : Prop :=
  (∃ b, b ≠ [] ∧ (∀ c ∈ b, isBlank c = true) ∧ l = "per".toList ++ b ++ "cent".toList) ∧
    behind.any isWord = false

lemma changes_perCent_iff {before : Option Char} {text : List Char} :
    perCent.Changes "percent".toList before text ↔ Found perCentText before text := by
  constructor
  · rintro ⟨u, m, rest, h, rfl, -⟩
    obtain ⟨hb, b, hne, hblanks, h, hend⟩ := perCent_eq_some_iff.mp h
    exact ⟨hb, "per".toList ++ b ++ "cent".toList, rest, by simpa using h, ⟨b, hne, hblanks, rfl⟩,
      hend⟩
  · rintro ⟨hb, l, rest, rfl, ⟨b, hne, hblanks, rfl⟩, hend⟩
    refine ⟨(), _, rest, perCent_eq_some_iff.mpr ⟨hb, b, hne, hblanks, by simp, hend⟩, rfl, ?_⟩
    obtain ⟨c, cs, rfl⟩ := List.exists_cons_of_ne_nil hne
    intro h
    have h : "per".toList ++ c :: (cs ++ "cent".toList) = "per".toList ++ 'c' :: "ent".toList := by
      simpa using h
    have hc : c = 'c' := (List.cons.inj (List.append_cancel_left h)).1
    exact absurd hc (ne_of_isBlank (hblanks c List.mem_cons_self) (by decide))

/-! ### Kilograms -/

lemma kilograms_eq_some_iff {before : Option Char} {text rest : List Char} {u : Unit} :
    kilograms before text = some (u, rest) ↔ before.any isWord = false ∧
      ∃ l ∈ ["kgs".toList, "kg".toList], ∃ r, text = l ++ r ∧ r.head?.any isWord = false ∧
        skipLiteral "." r = rest := by
  simp only [kilograms, Option.bind_eq_bind, Option.bind_eq_some_iff, Option.some.injEq,
    Prod.mk.injEq, true_and, Option.orElse_eq_orElse, Option.orElse_eq_or, Option.or_eq_some_iff]
  constructor
  · rintro ⟨r, h | ⟨-, h⟩, rfl⟩ <;> obtain ⟨⟨hb, rfl⟩, hend⟩ := wholeWord_eq_some_iff.mp h
    · exact ⟨(atBoundary_iff rfl).mp hb, _, List.mem_cons_self, r, rfl,
        (atBoundary_some_iff (by decide)).mp hend, rfl⟩
    · exact ⟨(atBoundary_iff rfl).mp hb, _, List.mem_cons_of_mem _ List.mem_cons_self, r, rfl,
        (atBoundary_some_iff (by decide)).mp hend, rfl⟩
  · rintro ⟨hb, l, hl, r, rfl, hend, rfl⟩
    simp only [List.mem_cons, List.not_mem_nil, or_false] at hl
    rcases hl with rfl | rfl
    · exact ⟨r, .inl (wholeWord_eq_some_iff.mpr ⟨⟨(atBoundary_iff rfl).mpr hb, rfl⟩,
        (atBoundary_some_iff (by decide)).mpr hend⟩), rfl⟩
    · refine ⟨r, .inr ⟨?_, wholeWord_eq_some_iff.mpr ⟨⟨(atBoundary_iff rfl).mpr hb, rfl⟩,
        (atBoundary_some_iff (by decide)).mpr hend⟩⟩, rfl⟩
      -- what follows `kg` is no `s`
      cases h : wholeWord "kgs" before ("kg".toList ++ r) with
      | none => rfl
      | some r' =>
        obtain ⟨⟨-, h⟩, -⟩ := wholeWord_eq_some_iff.mp h
        have hr : r = 's' :: r' := (List.cons.inj (List.cons.inj h).2).2
        rw [hr] at hend
        exact absurd hend (by simp; decide)

lemma kilograms_takes {before : Option Char} {text rest : List Char} {u : Unit}
    (h : kilograms before text = some (u, rest)) : before.any isWord = false ∧
      ∃ m ∈ ["kg".toList, "kg.".toList, "kgs".toList, "kgs.".toList], text = m ++ rest := by
  obtain ⟨hb, l, hl, r, rfl, -, rfl⟩ := kilograms_eq_some_iff.mp h
  refine ⟨hb, ?_⟩
  simp only [List.mem_cons, List.not_mem_nil, or_false] at hl
  rcases skipLiteral_cases "." r with hr | hr <;> rcases hl with rfl | rfl
  · exact ⟨"kgs.".toList, by decide, congrArg ("kgs".toList ++ ·) hr⟩
  · exact ⟨"kg.".toList, by decide, congrArg ("kg".toList ++ ·) hr⟩
  · exact ⟨"kgs".toList, by decide, by rw [hr]⟩
  · exact ⟨"kg".toList, by decide, by rw [hr]⟩

lemma headed_kilograms : kilograms.Headed 'k' where
  word := by decide
  takes before text u rest h := by
    obtain ⟨hb, m, hm, rfl⟩ := kilograms_takes h
    have htail : ∀ m ∈ ["kg".toList, "kg.".toList, "kgs".toList, "kgs.".toList],
        m = 'k' :: m.tail ∧ shields 'k' (some 'k') m.tail = true := by decide
    obtain ⟨h1, h2⟩ := htail m hm
    exact ⟨hb, m.tail, by rw [← h1], h2⟩

def kilogramText (l : List Char) (behind : Option Char) : Prop :=
  l = "kgs".toList ∧ behind.any isWord = false ∨ l = "kg.".toList

lemma changes_kilograms_iff {before : Option Char} {text : List Char} :
    kilograms.Changes "kg".toList before text ↔ Found kilogramText before text := by
  constructor
  · rintro ⟨u, m, rest, h, hm, hne⟩
    obtain ⟨hb, l, hl, r, rfl, hend, rfl⟩ := kilograms_eq_some_iff.mp h
    simp only [List.mem_cons, List.not_mem_nil, or_false] at hl
    rcases hl with rfl | rfl
    · exact ⟨hb, _, r, rfl, .inl ⟨rfl, hend⟩⟩
    · rcases skipLiteral_cases "." r with hr | hr
      · exact ⟨hb, "kg.".toList, _, congrArg ("kg".toList ++ ·) hr, .inr rfl⟩
      · rw [hr] at hm
        exact absurd (List.append_cancel_right hm).symm hne
  · rintro ⟨hb, l, rest, rfl, ⟨rfl, hend⟩ | rfl⟩
    · have h : kilograms before ("kgs".toList ++ rest) = some ((), skipLiteral "." rest) :=
        kilograms_eq_some_iff.mpr ⟨hb, _, List.mem_cons_self, rest, rfl, hend, rfl⟩
      rcases skipLiteral_cases "." rest with hr | hr
      · exact ⟨(), "kgs.".toList, _, h, congrArg ("kgs".toList ++ ·) hr, by decide⟩
      · exact ⟨(), "kgs".toList, _, h, by rw [hr], by decide⟩
    · have h : kilograms before ("kg.".toList ++ rest) = some ((), rest) :=
        kilograms_eq_some_iff.mpr
          ⟨hb, _, List.mem_cons_of_mem _ List.mem_cons_self, '.' :: rest, rfl, rfl, rfl⟩
      exact ⟨(), "kg.".toList, rest, h, rfl, by decide⟩

/-! ### Ad valorem -/

/-- The ways to write that a rate is on the value, short or long. -/
def IsAdValorem (l : List Char) : Prop :=
  ∃ b e, (∀ c ∈ b, isBlank c = true) ∧ e ∈ [[], ['.'], "orem".toList] ∧
    l = "ad".toList ++ b ++ "val".toList ++ e

/-- The ending of the abbreviation is passed over where the text ends or goes on with a blank. -/
lemma getD_ending {e text : List Char} (he : e ∈ [[], ['.'], "orem".toList])
    (ht : text.head?.all isBlank = true) :
    (literal "orem" (e ++ text)).getD (skipLiteral "." (e ++ text)) = text := by
  simp only [List.mem_cons, List.not_mem_nil, or_false] at he
  rcases he with rfl | rfl | rfl
  · rcases text with - | ⟨c, cs⟩
    · rfl
    · have hc : isBlank c = true := ht
      have ho : literal "orem" (c :: cs) = none := by
        cases h : literal "orem" (c :: cs) with
        | none => rfl
        | some r =>
          have := (List.cons.inj (literal_eq_some_iff.mp h)).1
          exact absurd this (ne_of_isBlank hc (by decide))
      have hdot : skipLiteral "." (c :: cs) = c :: cs := by
        rcases skipLiteral_cases "." (c :: cs) with h | h
        · exact absurd (List.cons.inj h).1 (ne_of_isBlank hc (by decide))
        · exact h
      rw [List.nil_append, ho, hdot]
      rfl
  · rfl
  · rfl

lemma adValorem_eq_some_iff {before : Option Char} {text rest : List Char} {u : Unit} :
    adValorem before text = some (u, rest) ↔ before.any isWord = false ∧
      ∃ l, IsAdValorem l ∧
        (text = l ∧ rest = [] ∨ ∃ c, isBlank c = true ∧ text = l ++ c :: rest) := by
  simp only [adValorem, Option.bind_eq_bind, Option.bind_eq_some_iff, wordStart_eq_some_iff,
    literal_eq_some_iff]
  constructor
  · rintro ⟨r, ⟨hb, rfl⟩, v, hv, h⟩
    obtain ⟨b, hblanks, hr⟩ := exists_blanks r
    rw [hv] at hr
    refine ⟨(atBoundary_iff rfl).mp hb, ?_⟩
    obtain ⟨e, he, hve⟩ : ∃ e ∈ [[], ['.'], "orem".toList],
        v = e ++ (literal "orem" v).getD (skipLiteral "." v) := by
      cases ho : literal "orem" v with
      | some t => exact ⟨"orem".toList, by decide, literal_eq_some_iff.mp ho⟩
      | none =>
        rcases skipLiteral_cases "." v with hs | hs
        · exact ⟨['.'], by decide, hs⟩
        · exact ⟨[], by decide, hs.symm⟩
    refine ⟨"ad".toList ++ b ++ "val".toList ++ e, ⟨b, e, hblanks, he, rfl⟩, ?_⟩
    split at h
    next hnil =>
      cases h
      rw [hnil, List.append_nil] at hve
      exact .inl ⟨by rw [hr, hve]; simp, rfl⟩
    next c cs hcons =>
      split_ifs at h with hc
      cases h
      rw [hcons] at hve
      exact .inr ⟨c, hc, by rw [hr, hve]; simp⟩
  · rintro ⟨hb, l, ⟨b, e, hblanks, he, rfl⟩, h⟩
    have hstart (t : List Char) : trimStart (b ++ ("val".toList ++ t)) = "val".toList ++ t :=
      trimStart_append hblanks rfl
    rcases h with ⟨rfl, rfl⟩ | ⟨c, hc, rfl⟩
    · refine ⟨b ++ ("val".toList ++ (e ++ [])), ⟨(atBoundary_iff rfl).mpr hb, by simp⟩, e ++ [],
        hstart _, ?_⟩
      rw [getD_ending he rfl]
    · refine ⟨b ++ ("val".toList ++ (e ++ c :: rest)), ⟨(atBoundary_iff rfl).mpr hb, by simp⟩,
        e ++ c :: rest, hstart _, ?_⟩
      have ht : (c :: rest).head?.all isBlank = true := hc
      rw [getD_ending he ht]
      dsimp only
      rw [if_pos hc]

lemma ne_of_mem_ending {e : List Char} (he : e ∈ [[], ['.'], "orem".toList]) :
    ∀ c ∈ e, c ≠ 'a' := by
  have h : ∀ e ∈ [[], ['.'], "orem".toList], e.all (fun c => decide (c ≠ 'a')) = true := by decide
  exact forall_mem_of_all (h e he)

lemma shields_adValorem {b e : List Char} (hb : ∀ c ∈ b, isBlank c = true)
    (he : ∀ c ∈ e, c ≠ 'a') :
    shields 'a' (some 'a') ("d".toList ++ (b ++ ("val".toList ++ e))) = true := by
  refine shields_blanks (by decide) hb (by decide) ?_
  rw [shields_append]
  exact ⟨by decide, shields_of_forall he⟩

lemma headed_adValorem : adValorem.Headed 'a' where
  word := by decide
  takes before text u rest h := by
    obtain ⟨hb, l, ⟨b, e, hblanks, he, rfl⟩, h⟩ := adValorem_eq_some_iff.mp h
    refine ⟨hb, ?_⟩
    have he := ne_of_mem_ending he
    rcases h with ⟨rfl, rfl⟩ | ⟨c, hc, rfl⟩
    · exact ⟨_, by simp, shields_adValorem hblanks he⟩
    · refine ⟨_, ?_, shields_adValorem hblanks (e := e ++ [c]) ?_⟩
      · simp
      · intro d hd
        rcases List.mem_append.mp hd with hd | hd
        · exact he d hd
        · rw [List.mem_singleton.mp hd]
          exact ne_of_isBlank hc (by decide)

def adValoremText (l : List Char) (behind : Option Char) : Prop :=
  IsAdValorem l ∧ behind.all isBlank = true ∧ ¬(l = "ad valorem".toList ∧ behind = some ' ')

lemma IsAdValorem.getLast? {l : List Char} (h : IsAdValorem l) :
    l.getLast?.any isBlank = false := by
  obtain ⟨b, e, -, he, rfl⟩ := h
  simp only [List.mem_cons, List.not_mem_nil, or_false] at he
  rcases he with rfl | rfl | rfl
  · rw [List.append_nil, List.getLast?_append_of_ne_nil _ (by decide)]
    decide
  · rw [List.getLast?_append_of_ne_nil _ (by decide)]
    decide
  · rw [List.getLast?_append_of_ne_nil _ (by decide)]
    decide

lemma changes_adValorem_iff {before : Option Char} {text : List Char} :
    adValorem.Changes "ad valorem ".toList before text ↔ Found adValoremText before text := by
  constructor
  · rintro ⟨u, m, rest, h, hm, hne⟩
    obtain ⟨hb, l, hl, ⟨rfl, rfl⟩ | ⟨c, hc, rfl⟩⟩ := adValorem_eq_some_iff.mp h
    · exact ⟨hb, text, [], (List.append_nil text).symm, hl, rfl, by simp⟩
    · refine ⟨hb, l, c :: rest, rfl, hl, hc, ?_⟩
      rintro ⟨rfl, hspace⟩
      cases hspace
      have : "ad valorem ".toList ++ rest = m ++ rest := hm
      exact hne (List.append_cancel_right this).symm
  · rintro ⟨hb, l, rest, rfl, hl, hblank, hne⟩
    rcases rest with - | ⟨c, cs⟩
    · have hfind : adValorem before (l ++ []) = some ((), []) :=
        adValorem_eq_some_iff.mpr ⟨hb, l, hl, .inl ⟨List.append_nil l, rfl⟩⟩
      refine ⟨(), l, [], hfind, rfl, ?_⟩
      rintro rfl
      exact absurd hl.getLast? (by decide)
    · refine ⟨(), l ++ [c], cs, adValorem_eq_some_iff.mpr ⟨hb, l, hl, .inr ⟨c, hblank, rfl⟩⟩,
        by simp, fun h => hne ?_⟩
      have h : l ++ [c] = "ad valorem".toList ++ [' '] := h
      obtain ⟨h1, h2⟩ := List.append_inj' h rfl
      exact ⟨h1, congrArg some (List.singleton_inj.mp h2)⟩

end Tariff.Rate
