import Tariff.Proofs.Schedule.Codes

/-!
Which codes a text holds. A code stands at a place if it begins and ends at word boundaries and is
not the beginning of a longer one that does. Two codes never overlap, so the search, which goes on
behind what it found, misses none.
-/

namespace Tariff

open Tariff.Text

/-- Between the character before it and the text behind it a code stands alone, and goes on as far
as it can. -/
structure StandsBetween (before : Option Char) (code behind : List Char) : Prop where
  isCode : IsCode code
  begins : before.any isWord = false
  ends : behind.head?.any isWord = false
  /-- a code of the short form does not go on with a dot and two digits, unless a word goes on
  behind them -/
  longest : HasForm longCode code ∨ ∀ a b rest, behind = '.' :: a :: b :: rest →
    isDecimalDigit a = true → isDecimalDigit b = true → rest.head?.any isWord = true

/-! ### What the pattern takes -/

lemma takeForm_eq_some_iff {form : List CodeChar} {text code rest : List Char} :
    takeForm form text = some (code, rest) ↔
      text = code ++ rest ∧ HasForm form code ∧ atBoundary code.getLast? rest = true := by
  unfold takeForm
  dsimp only
  rw [Option.ite_none_right_eq_some, Option.some.injEq, Prod.mk.injEq, Bool.and_eq_true,
    Bool.and_eq_true, beq_iff_eq]
  constructor
  · rintro ⟨⟨h, hb⟩, rfl, rfl⟩
    exact ⟨(List.take_append_drop _ _).symm, hasForm_iff.mpr h, hb⟩
  · rintro ⟨rfl, h, hb⟩
    rw [← h.length, List.take_left, List.drop_left]
    exact ⟨⟨hasForm_iff.mp h |>.imp_left fun _ => rfl, hb⟩, rfl, rfl⟩

lemma IsCode.atBoundary_iff {code : List Char} (h : IsCode code) {rest : List Char} :
    atBoundary code.getLast? rest = true ↔ rest.head?.any isWord = false := by
  obtain ⟨-, c, hl, hc⟩ := h.ends
  rw [hl]
  exact atBoundary_some_iff (isWord_of_isDecimalDigit hc)

/-- A code of the short form begins one of the long form if a dot and two digits follow. -/
lemma HasForm.long_iff {code tail : List Char} (h : HasForm shortCode code) :
    HasForm longCode (code ++ tail) ↔
      ∃ a b, tail = ['.', a, b] ∧ isDecimalDigit a = true ∧ isDecimalDigit b = true := by
  obtain ⟨hl, ha⟩ := hasForm_iff.mp h
  rw [hasForm_iff, longCode, List.length_append, List.length_append, hl, List.zip_append hl.symm,
    List.all_append, ha, Bool.true_and, Nat.add_left_cancel_iff]
  constructor
  · rintro ⟨hlength, hall⟩
    obtain ⟨d, a, b, rfl⟩ := List.length_eq_three.mp hlength
    simp only [List.zip_cons_cons, List.zip_nil_right, List.all_cons, List.all_nil, Bool.and_true,
      CodeChar.accepts, Bool.and_eq_true, beq_iff_eq] at hall
    obtain ⟨rfl, ha, hb⟩ := hall
    exact ⟨a, b, rfl, ha, hb⟩
  · rintro ⟨a, b, rfl, ha, hb⟩
    exact ⟨rfl, by simp [CodeChar.accepts, ha, hb]⟩

/-- The long form is not taken where the short one is unless the code goes on so. -/
lemma takeForm_longCode_eq_none_iff {code behind : List Char} (h : HasForm shortCode code) :
    takeForm longCode (code ++ behind) = none ↔ ∀ a b rest, behind = '.' :: a :: b :: rest →
      isDecimalDigit a = true → isDecimalDigit b = true → rest.head?.any isWord = true := by
  constructor
  · rintro hnone a b rest rfl ha hb
    by_contra hrest
    have hlong := h.long_iff.mpr ⟨a, b, rfl, ha, hb⟩
    have htake := takeForm_eq_some_iff.mpr ⟨(List.append_assoc code ['.', a, b] rest).symm, hlong,
      (IsCode.atBoundary_iff (.inl hlong)).mpr (Bool.eq_false_iff.mpr hrest)⟩
    exact absurd (htake.symm.trans hnone) (Option.some_ne_none _)
  · intro hlongest
    refine Option.eq_none_iff_forall_not_mem.mpr fun ⟨code', rest⟩ htake => ?_
    obtain ⟨heq, hlong, hend⟩ := takeForm_eq_some_iff.mp htake
    -- a longer code at the place goes on with a dot and two digits
    have hprefix : code <+: code' := List.prefix_of_prefix_length_le (List.prefix_append _ behind)
      (heq ▸ List.prefix_append _ rest) (by rw [h.length, hlong.length]; decide)
    obtain ⟨tail, rfl⟩ := hprefix
    obtain ⟨a, b, rfl, ha, hb⟩ := h.long_iff.mp hlong
    rw [List.append_assoc, List.append_cancel_left_eq] at heq
    have hword := hlongest a b rest heq ha hb
    rw [(IsCode.atBoundary_iff (.inl hlong)).mp hend] at hword
    cases hword

/-- **The pattern takes what stands at the place.** -/
lemma chapter99Code_eq_some_iff {before : Option Char} {text rest : List Char} {s : String} :
    chapter99Code before text = some (s, rest) ↔
      ∃ code, s = String.ofList code ∧ text = code ++ rest ∧ StandsBetween before code rest := by
  have hbegins {code : List Char} (hc : IsCode code) :
      atBoundary before (code ++ rest) = true ↔ before.any isWord = false := by
    refine Text.atBoundary_iff ?_
    rw [List.head?_append, hc.ends.1]
    exact show isWord '9' = true by decide
  unfold chapter99Code
  rw [Option.ite_none_right_eq_some]
  simp only [Option.orElse_eq_orElse, Option.orElse_eq_or, Option.map_eq_some_iff,
    Option.or_eq_some_iff, Prod.mk.injEq]
  constructor
  · rintro ⟨hb, ⟨code, rest'⟩, htake, rfl, rfl⟩
    refine ⟨code, rfl, ?_⟩
    rcases htake with htake | ⟨hnone, htake⟩
    · obtain ⟨rfl, hform, hend⟩ := takeForm_eq_some_iff.mp htake
      exact ⟨rfl, .inl hform, (hbegins (.inl hform)).mp hb,
        (IsCode.atBoundary_iff (.inl hform)).mp hend, .inl hform⟩
    · obtain ⟨rfl, hform, hend⟩ := takeForm_eq_some_iff.mp htake
      exact ⟨rfl, .inr hform, (hbegins (.inr hform)).mp hb,
        (IsCode.atBoundary_iff (.inr hform)).mp hend,
        .inr ((takeForm_longCode_eq_none_iff hform).mp hnone)⟩
  · rintro ⟨code, rfl, rfl, h⟩
    refine ⟨(hbegins h.isCode).mpr h.begins, (code, rest), ?_, rfl, rfl⟩
    have hend := h.isCode.atBoundary_iff.mpr h.ends
    rcases h.longest with hlong | hlongest
    · exact .inl (takeForm_eq_some_iff.mpr ⟨rfl, hlong, hend⟩)
    rcases h.isCode with hlong | hshort
    · exact .inl (takeForm_eq_some_iff.mpr ⟨rfl, hlong, hend⟩)
    · exact .inr ⟨(takeForm_longCode_eq_none_iff hshort).mpr hlongest,
        takeForm_eq_some_iff.mpr ⟨rfl, hshort, hend⟩⟩

/-! ### Codes do not overlap -/

def CodeChar.inWord : CodeChar → Bool
  | .digit => true
  | .char c => isWord c

lemma CodeChar.isWord_of_accepts {f : CodeChar} {c : Char} (h : f.accepts c = true) :
    isWord c = f.inWord := by
  cases f with
  | digit => exact isWord_of_isDecimalDigit h
  | char d => rw [inWord, eq_of_beq (show (d == c) = true from h)]

lemma inWord_longCode {i : ℕ} {f : CodeChar} (hf : longCode[i]? = some f) :
    f.inWord = decide (i < 4 ∨ i % 3 ≠ 1) := by
  have h : ∀ i < longCode.length,
      longCode[i]?.map CodeChar.inWord = some (decide (i < 4 ∨ i % 3 ≠ 1)) := by decide
  have hi := h i (List.getElem?_eq_some_iff.mp hf).1
  rw [hf, Option.map_some, Option.some.injEq] at hi
  exact hi

/-- Behind the first four digits of a code each third character is a dot. -/
lemma IsCode.isWord_getElem? {code : List Char} (h : IsCode code) {i : ℕ} {c : Char}
    (hc : code[i]? = some c) : isWord c = decide (i < 4 ∨ i % 3 ≠ 1) := by
  have hlt := (List.getElem?_eq_some_iff.mp hc).1
  -- the short form is the beginning of the long one
  obtain ⟨f, hf, haccepts⟩ : ∃ f, longCode[i]? = some f ∧ f.accepts c = true := by
    rcases h with h | h
    all_goals
      have hi := h.length ▸ hlt
      obtain ⟨c', hc', haccepts⟩ := h.exists_getElem? (List.getElem?_eq_getElem hi)
      rw [Option.some.inj (hc.symm.trans hc')]
    · exact ⟨_, List.getElem?_eq_getElem hi, haccepts⟩
    · exact ⟨_, (List.getElem?_append_left hi).trans (List.getElem?_eq_getElem hi), haccepts⟩
  rw [CodeChar.isWord_of_accepts haccepts, inWord_longCode hf]

lemma IsCode.length {code : List Char} (h : IsCode code) : code.length % 3 = 1 := by
  rcases h with h | h <;> rw [h.length] <;> rfl

/-- Neither the dots of a code nor what stands behind it belong to a word. -/
lemma StandsBetween.isWord_getElem? {before : Option Char} {code rest : List Char}
    (h : StandsBetween before code rest) {i : ℕ} (hi : i ≤ code.length) (h4 : 4 ≤ i)
    (h3 : i % 3 = 1) : (code ++ rest)[i]?.any isWord = false := by
  rcases Nat.lt_or_eq_of_le hi with hlt | rfl
  · rw [List.getElem?_append_left hlt, List.getElem?_eq_getElem hlt, Option.any_some,
      h.isCode.isWord_getElem? (List.getElem?_eq_getElem hlt)]
    exact decide_eq_false (by omega)
  · rw [List.getElem?_append_right le_rfl, Nat.sub_self, ← List.head?_eq_getElem?]
    exact h.ends

/-- Within a code that stands alone no other does. -/
lemma StandsBetween.not_inside {before : Option Char} {front v rest inner rest' : List Char}
    (h : StandsBetween before (front ++ v) rest) (hfront : front ≠ []) (hv : v ≠ [])
    (heq : v ++ rest = inner ++ rest') : ¬StandsBetween front.getLast? inner rest' := by
  intro hinner
  have hfront := List.length_pos_iff.mpr hfront
  have hv := List.length_pos_iff.mpr hv
  have hmod := h.isCode.length
  rw [List.length_append] at hmod
  -- the other begins behind a dot
  have hdot : 4 ≤ front.length - 1 ∧ (front.length - 1) % 3 = 1 := by
    have hlast : (front ++ v)[front.length - 1]? = some front[front.length - 1] := by
      rw [List.getElem?_append_left (by omega), List.getElem?_eq_getElem (by omega)]
    have hword := h.isCode.isWord_getElem? hlast
    have hbegins := hinner.begins
    rw [List.getLast?_eq_getElem?, List.getElem?_eq_getElem (by omega), Option.any_some, hword,
      decide_eq_false_iff_not] at hbegins
    omega
  -- so where its third digit is, there is a dot or the end
  have hthird := h.isWord_getElem? (i := front.length + 2)
    (by rw [List.length_append]; omega) (by omega) (by omega)
  have hlong : 2 < inner.length := by
    rcases hinner.isCode with hi | hi <;> rw [hi.length] <;> decide
  have hdigit := List.getElem?_eq_getElem hlong
  have hword := hinner.isCode.isWord_getElem? hdigit
  rw [List.append_assoc, List.getElem?_append_right (by omega), Nat.add_sub_cancel_left, heq,
    List.getElem?_append_left hlong, hdigit, Option.any_some, hword] at hthird
  cases hthird

lemma apart_chapter99Code : chapter99Code.Apart := by
  intro before c cs s rest h
  obtain ⟨code, -, heq, hstands⟩ := chapter99Code_eq_some_iff.mp h
  obtain ⟨code', rfl⟩ := List.head?_eq_some_iff.mp hstands.isCode.ends.1
  obtain ⟨rfl, rfl⟩ := List.cons_eq_cons.mp heq
  refine ⟨code', rfl, Pattern.idle_of_forall fun u v hv hne => ?_⟩
  subst hv
  rw [← getLast?_cons_or '9' u none, Option.or_none]
  refine Option.eq_none_iff_forall_not_mem.mpr fun ⟨s', rest'⟩ hfound => ?_
  obtain ⟨inner, -, hinner, hstands'⟩ := chapter99Code_eq_some_iff.mp hfound
  have hcut : StandsBetween before (('9' :: u) ++ v) rest := hstands
  exact hcut.not_inside (List.cons_ne_nil _ _) hne hinner hstands'

lemma chapter99Code_nil (before : Option Char) : chapter99Code before [] = none := by
  unfold chapter99Code
  rw [takeForm_eq_none (by decide), takeForm_eq_none (by decide)]
  exact ite_self _

/-- Somewhere in the text the code stands alone. -/
def Holds (text s : String) : Prop :=
  ∃ front code behind, text.toList = front ++ (code ++ behind) ∧ s = String.ofList code ∧
    StandsBetween front.getLast? code behind

/-- **The codes found in a text are those that stand somewhere in it.** -/
theorem mem_chapter99Codes_iff {text s : String} : s ∈ chapter99Codes text ↔ Holds text s := by
  unfold chapter99Codes
  rw [apart_chapter99Code.mem_collect_iff chapter99Code_nil]
  constructor
  · rintro ⟨front, text', behind, heq, h⟩
    obtain ⟨code, hs, rfl, hstands⟩ := chapter99Code_eq_some_iff.mp h
    exact ⟨front, code, behind, heq, hs, hstands⟩
  · rintro ⟨front, code, behind, heq, hs, hstands⟩
    exact ⟨front, code ++ behind, behind, heq,
      chapter99Code_eq_some_iff.mpr ⟨code, hs, rfl, hstands⟩⟩

end Tariff
