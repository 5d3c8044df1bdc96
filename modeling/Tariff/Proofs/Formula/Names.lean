import Tariff.Proofs.Formula.Gate
import Tariff.Proofs.Formula.Tokens
import Tariff.Proofs.Text.Runs

/-!
The names in an accepted formula. The only letters that the gate lets pass are lower-case ASCII
ones, so the letters of any script spell the names that the gate sees, and no others.
-/

namespace Tariff.Formula

open Tariff.Text

/-- A letter of any script, or the underscore. -/
def isLetter (c : Char) : Bool := isAlphabetic c || c == '_'

lemma wordPoints_of_blank : ∀ n ∈ wideBlanks.points,
    (alphabetics.covers n || decimalDigits.covers n || wordMarks.covers n) = false := by
  decide +kernel

/-- Beyond ASCII only blanks pass the gate. -/
lemma isBlank_of_isAllowed {c : Char} (h : isAllowed c = true) (hc : ¬c.toNat < 128) :
    wideBlanks.covers c.toNat = true := by
  unfold isAllowed at h
  rw [Bool.or_eq_true, Bool.or_eq_true, Bool.or_eq_true] at h
  rcases h with ((h | h) | h) | h
  · exact absurd (ascii_of_isAsciiDigit h) hc
  · exact absurd (ascii_of_isNameChar h) hc
  · unfold isBlank at h
    rw [if_neg hc] at h
    simpa [CodePoints.contains] using h
  · have hmem : c ∈ "+-*/().".toList := List.contains_iff_mem.mp h
    have hascii : ∀ c ∈ "+-*/().".toList, c.toNat < 128 := by simp
    exact absurd (hascii c hmem) hc

/-- Beyond ASCII nothing that passes the gate belongs to a word. -/
lemma covers_of_isAllowed {c : Char} (h : isAllowed c = true) (hc : ¬c.toNat < 128) :
    alphabetics.covers c.toNat = false ∧ decimalDigits.covers c.toNat = false ∧
      wordMarks.covers c.toNat = false := by
  have := wordPoints_of_blank c.toNat (CodePoints.mem_points_of_covers (isBlank_of_isAllowed h hc))
  rwa [Bool.or_eq_false_iff, Bool.or_eq_false_iff, and_assoc] at this

lemma classes_of_ascii {c : Char} (hc : c.toNat < 128) : isAllowed c = true →
    isLetter c = isNameChar c ∧ isWord c = (isNameChar c || isAsciiDigit c) :=
  forall_ascii (P := fun c => isAllowed c = true →
    isLetter c = isNameChar c ∧ isWord c = (isNameChar c || isAsciiDigit c)) (by decide +kernel) hc

lemma classes_of_isAllowed {c : Char} (h : isAllowed c = true) :
    isLetter c = isNameChar c ∧ isWord c = (isNameChar c || isAsciiDigit c) := by
  by_cases hc : c.toNat < 128
  · exact classes_of_ascii hc h
  · have hne : c ≠ '_' := by
      rintro rfl
      exact hc (by decide)
    rw [Bool.eq_false_iff.mpr (mt ascii_of_isNameChar hc),
      Bool.eq_false_iff.mpr (mt ascii_of_isAsciiDigit hc)]
    unfold isLetter isAlphabetic isWord
    rw [if_neg hc, if_neg hc]
    simp [CodePoints.contains, covers_of_isAllowed h hc, hne]

/-- A formula names nothing but variables. -/
def KnownNames (formula : String) : Prop :=
  ∀ w ∈ names formula.toList, ∃ v : Variable, w = v.name

/-- In whatever script, the letters of a formula spell nothing but variables. -/
lemma KnownNames.of_letters {formula : String} (h : KnownNames formula)
    (ha : Accepted formula) {r : List Char} (hr : r ∈ runsOf isLetter formula.toList) :
    ∃ v : Variable, String.ofList r = v.name := by
  rw [runsOf_congr fun c hc => (classes_of_isAllowed ((accepted_iff.mp ha).2.1 c hc)).1] at hr
  exact h _ (List.mem_map.mpr ⟨r, hr, rfl⟩)

/-! ### Words -/

lemma name_variable (v : Variable) : v.name.toList ≠ [] ∧
    ∀ c ∈ v.name.toList, isNameChar c = true ∧ isWord c = true := by
  have hall : v.name.toList.all (fun c => isNameChar c && isWord c) = true := by
    cases v <;> decide
  constructor
  · cases v <;> decide
  · intro c hc
    simpa using List.all_eq_true.mp hall c hc

lemma variables_of_not {s : List Char} (hs : ∀ c ∈ s, isNameChar c = false) :
    (runsOf isWord s).filterMap (fun w => Variable.ofName? (String.ofList w)) = [] := by
  refine List.filterMap_eq_nil_iff.mpr fun r hr => Option.eq_none_iff_forall_ne_some.mpr ?_
  intro v hv
  obtain ⟨hr0, hrs⟩ := mem_runsOf hr
  obtain ⟨c, cs, rfl⟩ := List.exists_cons_of_ne_nil hr0
  have hc : c ∈ v.name.toList := by
    rw [← Variable.eq_name_of_ofName? hv, String.toList_ofList]
    exact List.mem_cons_self
  have := hs c (hrs c List.mem_cons_self)
  rw [((name_variable v).2 c hc).1] at this
  cases this

lemma isWord_of_isNameChar {c : Char} (h : isNameChar c = true) : isWord c = true := by
  have ha : isAllowed c = true := by simp [isAllowed, h]
  rw [(classes_of_isAllowed ha).2, h, Bool.true_or]

end Tariff.Formula
