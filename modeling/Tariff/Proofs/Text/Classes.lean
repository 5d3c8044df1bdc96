import Mathlib.Tactic.Common
import Tariff.Text.Blank
import Tariff.Text.Word

/-!
How the classes of characters lie to one another. What holds of an ASCII character is checked on
all of them; beyond ASCII the tables are compared.
-/

namespace Tariff.Text

/-- A property of a few characters, checked on each of them. To decide the statement as it is would
go through every character there is. -/
lemma forall_mem_of_all {P : Char → Prop} [DecidablePred P] {s : List Char}
    (h : s.all (fun c => decide (P c)) = true) : ∀ c ∈ s, P c := fun c hc =>
  of_decide_eq_true (List.all_eq_true.mp h c hc)

lemma forall_ascii {P : Char → Prop} (h : ∀ n < 128, P (Char.ofNat n)) {c : Char}
    (hc : c.toNat < 128) : P c := by
  have := h c.toNat hc
  rwa [Char.ofNat_toNat] at this

lemma toNat_le_of_le {c d : Char} (h : c ≤ d) : c.toNat ≤ d.toNat :=
  UInt32.le_iff_toNat_le.mp (Char.le_def.mp h)

lemma toNat_of_isAsciiDigit {c : Char} (h : isAsciiDigit c = true) :
    48 ≤ c.toNat ∧ c.toNat ≤ 57 := by
  unfold isAsciiDigit at h
  rw [Bool.and_eq_true, decide_eq_true_eq, decide_eq_true_eq] at h
  exact ⟨toNat_le_of_le h.1, toNat_le_of_le h.2⟩

lemma ascii_of_isAsciiDigit {c : Char} (h : isAsciiDigit c = true) : c.toNat < 128 := by
  have := toNat_of_isAsciiDigit h
  omega

lemma toNat_of_isBlank {c : Char} (hc : c.toNat < 128) (h : isBlank c = true) : c.toNat ≤ 32 := by
  unfold isBlank at h
  rw [if_pos hc, Bool.or_eq_true, Bool.and_eq_true, decide_eq_true_eq, decide_eq_true_eq] at h
  rcases h with h | ⟨-, h⟩
  · rw [eq_of_beq h]
    decide
  · have : c.toNat ≤ 13 := toNat_le_of_le h
    omega

def CodePoints.points (t : CodePoints) : List Nat :=
  t.flatMap fun (lo, hi) => List.range' lo (hi + 1 - lo)

lemma CodePoints.mem_points_of_covers {t : CodePoints} {n : Nat} (h : t.covers n = true) :
    n ∈ t.points := by
  induction t with
  | nil => cases h
  | cons r rest ih =>
    obtain ⟨lo, hi⟩ := r
    unfold covers at h
    split_ifs at h with hlo
    rw [Bool.or_eq_true, decide_eq_true_eq] at h
    unfold points
    rw [List.flatMap_cons, List.mem_append]
    rcases h with h | h
    · exact .inl (List.mem_range'_1.mpr ⟨by omega, by omega⟩)
    · exact .inr (ih h)

lemma isWord_of_isDecimalDigit {c : Char} (h : isDecimalDigit c = true) : isWord c = true := by
  unfold isDecimalDigit at h
  unfold isWord
  split_ifs at h ⊢ <;> simp [h]

lemma covers_of_blank : ∀ n ∈ wideBlanks.points, decimalDigits.covers n = false := by
  decide +kernel

lemma isBlank_of_isAsciiDigit {c : Char} (h : isAsciiDigit c = true) : isBlank c = false :=
  Bool.eq_false_iff.mpr fun hb => by
    have := toNat_of_isBlank (ascii_of_isAsciiDigit h) hb
    have := toNat_of_isAsciiDigit h
    omega

/-- A digit of any script is no blank. -/
lemma isBlank_of_isDecimalDigit {c : Char} (h : isDecimalDigit c = true) : isBlank c = false := by
  unfold isDecimalDigit at h
  split_ifs at h with hc
  · exact isBlank_of_isAsciiDigit h
  · unfold isBlank
    rw [if_neg hc]
    by_contra hb
    have := covers_of_blank c.toNat
      (CodePoints.mem_points_of_covers (by simpa [CodePoints.contains] using hb))
    unfold CodePoints.contains at h
    rw [this] at h
    cases h

/-! ### Word boundaries -/

/-- Where a word begins, a boundary is the end of no word. -/
lemma atBoundary_iff {before : Option Char} {text : List Char}
    (h : text.head?.any isWord = true) :
    atBoundary before text = true ↔ before.any isWord = false := by
  unfold atBoundary
  rw [h]
  cases before.any isWord <;> decide

/-- Behind a word, a boundary is a text that does not go on with one. -/
lemma atBoundary_some_iff {c : Char} (hc : isWord c = true) {text : List Char} :
    atBoundary (some c) text = true ↔ text.head?.any isWord = false := by
  have h : (some c).any isWord = true := hc
  unfold atBoundary
  rw [h]
  cases text.head?.any isWord <;> decide

end Tariff.Text
