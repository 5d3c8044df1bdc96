import Tariff.Formula.Literal
import Tariff.Proofs.Decimal.Digits
import Tariff.Proofs.Decimal.HalfEven
import Tariff.Proofs.Decimal.Unit
import Tariff.Proofs.Text.Trim

/-!
The numbers of a formula as text. A finite number is written as a decimal, perhaps with a minus in
front; a number that is not finite is written as a word.
-/

namespace Tariff.Formula

open Tariff.Text Tariff.Decimal

def IsSign (s : List Char) : Prop := s = [] ∨ s = ['-']

lemma isSign_ite (p : Prop) [Decidable p] : IsSign (if p then ['-'] else []) := by
  split_ifs
  · exact .inr rfl
  · exact .inl rfl

/-- A decimal behind a sign. -/
def IsNumeral (s : List Char) : Prop := ∃ sign d, IsSign sign ∧ IsDecimal d ∧ s = sign ++ d

lemma allDigits_dropTail {p : Char → Bool} {f : List Char} (hf : AllDigits f) :
    AllDigits (dropTail p f) := by
  intro c hc
  rw [dropTail_eq_rdropWhile] at hc
  exact hf c ((List.rdropWhile_prefix p f).subset hc)

lemma dropTail_zeros (w : List Char) (f : List Char) :
    dropTail (· == '0') (w ++ '.' :: f) = w ++ '.' :: dropTail (· == '0') f := by
  have h : dropTail (· == '0') ('.' :: f) = '.' :: dropTail (· == '0') f := by
    rw [dropTail_cons]
    split_ifs with h1 h2
    · cases h2
    · rw [h1]
    · rfl
  rw [dropTail_append, h]
  rfl

lemma dropTail_dot {s : List Char} (hs : AllDigits s) : dropTail (· == '.') s = s := by
  refine dropTail_eq_self_iff.mpr fun c hc => beq_eq_false_iff_ne.mpr fun h => ?_
  have := hs c (List.mem_of_getLast? hc)
  rw [h] at this
  exact absurd this (by decide)

lemma dropTail_point {w g : List Char} (hw : AllDigits w) (hg : AllDigits g) :
    dropTail (· == '.') (w ++ '.' :: g) = w ++ point g := by
  have h : dropTail (· == '.') ('.' :: g) = point g := by
    rw [dropTail_cons, dropTail_dot hg]
    cases g <;> rfl
  rw [dropTail_append, h, dropTail_dot hw]
  split_ifs with hg'
  · rw [hg', List.append_nil]
  · rfl

/-- Without the zeros at its end and a point that they leave behind, a decimal is a decimal. -/
lemma dropTail_decimal {w f : List Char} (sign : List Char) (hw : AllDigits w) (hne : w ≠ [])
    (hf : AllDigits f) :
    dropTail (· == '.') (dropTail (· == '0') (sign ++ (w ++ '.' :: f))) =
      sign ++ (w ++ point (dropTail (· == '0') f)) := by
  have h : w ++ '.' :: dropTail (· == '0') f ≠ [] := by simp
  have h' : w ++ point (dropTail (· == '0') f) ≠ [] := by simp [hne]
  rw [dropTail_append, dropTail_zeros, if_neg h, dropTail_append,
    dropTail_point hw (allDigits_dropTail hf), if_neg h']

/-- The sign of a number, which zero has too. -/
def signOf (b : Binary) : List Char := if b.negative then ['-'] else []

lemma exists_finite (b : Binary) : ∃ d, IsDecimal d ∧ plain.finite b = signOf b ++ d :=
  ⟨_, isDecimal_plain _, rfl⟩

/-- Ten digits behind the point, without the zeros at their end. -/
lemma exists_trimmed (b : Binary) : ∃ w f, w ≠ [] ∧ AllDigits w ∧ AllDigits f ∧ f.length = 10 ∧
    (w.head? = some '0' → w = ['0']) ∧ natOfDigits (w ++ f) = b.steps 10 ∧
    dropTail (· == '.') (dropTail (· == '0') (b.fixed 10)) =
      signOf b ++ (w ++ point (dropTail (· == '0') f)) := by
  obtain ⟨w, f, hne, hw, hf, hlen, hzero, hvalue, hp⟩ := pointed_eq 10 (b.steps 10)
  have hf' : f ≠ [] := List.ne_nil_of_length_pos (by omega)
  have hfixed : b.fixed 10 = signOf b ++ pointed 10 (b.steps 10) := rfl
  refine ⟨w, f, hne, hw, hf, hlen, hzero, hvalue, ?_⟩
  rw [hfixed, hp, point_of_ne_nil hf', dropTail_decimal _ hw hne hf]

lemma exists_fixed (b : Binary) : ∃ d, IsDecimal d ∧
    dropTail (· == '.') (dropTail (· == '0') (b.fixed 10)) = signOf b ++ d := by
  obtain ⟨w, f, hne, hw, hf, -, -, -, h⟩ := exists_trimmed b
  exact ⟨_, ⟨w, _, hne, hw, allDigits_dropTail hf, rfl⟩, h⟩

lemma toList_fixed (places : Nat) {x : Float} {b : Binary} (hb : Binary.ofFloat? x = some b) :
    (fixed places x).toList = b.fixed places := by
  unfold fixed
  rw [hb, String.toList_ofList]

lemma toList_render (l : Layout) {x : Float} {b : Binary} (hb : Binary.ofFloat? x = some b) :
    (l.render x).toList = l.finite b := by
  unfold Layout.render
  rw [hb, String.toList_ofList]

/-- A finite number is written as a decimal, and no minus stands before it that the number does not
have. -/
lemma exists_literal {x : Float} {b : Binary} (hb : Binary.ofFloat? x = some b) :
    ∃ sign d, (sign = [] ∨ sign = signOf b) ∧ IsDecimal d ∧ (literal x).toList = sign ++ d := by
  have hrender := toList_render plain hb
  unfold literal
  dsimp only
  rw [toList_fixed 10 hb]
  split_ifs
  · have hzero : AllDigits "0".toList := fun c hc => by
      obtain rfl := List.mem_singleton.mp hc
      rfl
    exact ⟨[], "0".toList, .inl rfl, isDecimal_of_digits (by decide) hzero, rfl⟩
  · obtain ⟨d, hd, h⟩ := exists_finite b
    exact ⟨_, d, .inr rfl, hd, hrender.trans h⟩
  · obtain ⟨d, hd, h⟩ := exists_fixed b
    exact ⟨_, d, .inr rfl, hd, (String.toList_ofList).trans h⟩

lemma exists_binary {x : Float} (h : x.isFinite = true) : ∃ b, Binary.ofFloat? x = some b := by
  rw [← Option.ne_none_iff_exists', ne_eq, ofFloat?_eq_none_iff, h]
  decide

/-- **Finite numbers are written as numerals**. -/
lemma isNumeral_literal {x : Float} (h : x.isFinite = true) : IsNumeral (literal x).toList := by
  obtain ⟨b, hb⟩ := exists_binary h
  obtain ⟨sign, d, hsign, hd, heq⟩ := exists_literal hb
  refine ⟨sign, d, ?_, hd, heq⟩
  rcases hsign with rfl | rfl
  · exact .inl rfl
  · exact isSign_ite _

lemma negative_of_pos {x : Float} {b : Binary} (hb : Binary.ofFloat? x = some b) (h : 0 < x) :
    b.negative = false := by
  rw [lt_iff, unpack_zero] at h
  rcases cases_of_ofFloat? hb with ⟨-, hu⟩ | ⟨_, hu⟩ <;> rw [hu] at h
  · cases h
  · unfold Binary.sign at h
    cases hn : b.negative with
    | false => rfl
    | true => rw [hn] at h; cases h

lemma isDecimal_literal {x : Float} (hf : x.isFinite = true) (h : 0 < x) :
    IsDecimal (literal x).toList := by
  obtain ⟨b, hb⟩ := exists_binary hf
  obtain ⟨sign, d, hsign, hd, heq⟩ := exists_literal hb
  have hnil : sign = [] := by
    rcases hsign with rfl | rfl
    · rfl
    · unfold signOf
      rw [negative_of_pos hb h]
      rfl
  rw [heq, hnil]
  exact hd

end Tariff.Formula
