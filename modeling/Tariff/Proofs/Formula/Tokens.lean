import Mathlib.Tactic.Common
import Tariff.Formula.Token
import Tariff.Proofs.Decimal.Digits
import Tariff.Proofs.Text.Classes

/-!
The tokens of a text put together from pieces. Each rule takes one piece off the front; the places
of the tokens are left out, as only messages show them.
-/

namespace Tariff.Formula

open Tariff.Text

/-! ### Classes of characters -/

lemma toNat_of_isNameChar {c : Char} (h : isNameChar c = true) :
    95 ≤ c.toNat ∧ c.toNat ≤ 122 := by
  rcases Bool.or_eq_true _ _ ▸ h with h | h
  · rw [Bool.and_eq_true, decide_eq_true_eq, decide_eq_true_eq] at h
    have hlo : 97 ≤ c.toNat := toNat_le_of_le h.1
    exact ⟨by omega, toNat_le_of_le h.2⟩
  · rw [eq_of_beq h]; decide

lemma ascii_of_isNameChar {c : Char} (h : isNameChar c = true) : c.toNat < 128 := by
  have := toNat_of_isNameChar h
  omega

lemma toNat_of_isNumberChar {c : Char} (h : isNumberChar c = true) :
    46 ≤ c.toNat ∧ c.toNat ≤ 57 := by
  rcases Bool.or_eq_true _ _ ▸ h with h | h
  · have := toNat_of_isAsciiDigit h
    omega
  · rw [eq_of_beq h]; decide

lemma isBlank_of_isNumberChar {c : Char} (h : isNumberChar c = true) : isBlank c = false :=
  Bool.eq_false_iff.mpr fun hb => by
    have := toNat_of_isNumberChar h
    have := toNat_of_isBlank (by omega) hb
    omega

lemma isBlank_of_isNameChar {c : Char} (h : isNameChar c = true) :
    isBlank c = false ∧ isNumberChar c = false := by
  have hname := toNat_of_isNameChar h
  refine ⟨Bool.eq_false_iff.mpr fun hb => ?_, Bool.eq_false_iff.mpr fun hn => ?_⟩
  · have := toNat_of_isBlank (ascii_of_isNameChar h) hb
    omega
  · have := toNat_of_isNumberChar hn
    omega

lemma isNameChar_of_isNumberChar {c : Char} (h : isNumberChar c = true) : isNameChar c = false :=
  Bool.eq_false_iff.mpr fun hn => by
    rw [(isBlank_of_isNameChar hn).2] at h
    cases h

lemma isNameChar_of_isBlank {c : Char} (h : isBlank c = true) : isNameChar c = false :=
  Bool.eq_false_iff.mpr fun hn => by
    rw [(isBlank_of_isNameChar hn).1] at h
    cases h

lemma classes_char (o : Op) : isBlank o.char = false ∧ isNumberChar o.char = false ∧
    isNameChar o.char = false ∧ o.char ≠ '(' ∧ o.char ≠ ')' ∧ Op.ofChar? o.char = some o := by
  cases o <;> decide

lemma Op.eq_char_of_ofChar? {c : Char} {o : Op} (h : Op.ofChar? c = some o) : c = o.char := by
  unfold ofChar? at h
  split at h <;> cases h <;> rfl

/-! ### Tokens -/

/-- The text has these tokens, wherever it stands. -/
def Lexes (text : List Char) (ts : List Token) : Prop :=
  ∀ i, ∃ placed, tokensFrom i 0 text = .ok placed ∧ placed.map (·.2) = ts

lemma tokensFrom_skip (i : Nat) (s rest : List Char) :
    tokensFrom i s.length (s ++ rest) = tokensFrom (i + s.length) 0 rest := by
  induction s generalizing i with
  | nil => rfl
  | cons c cs ih =>
    have h : tokensFrom i (c :: cs).length (c :: cs ++ rest) =
        tokensFrom (i + 1) cs.length (cs ++ rest) := rfl
    rw [h, ih, List.length_cons, Nat.add_assoc, Nat.add_comm 1]

lemma tokensFrom_opening (i : Nat) (cs : List Char) : tokensFrom i 0 ('(' :: cs) =
    (tokensFrom (i + 1) 0 cs).map ((i, .opening) :: ·) := rfl

lemma tokensFrom_closing (i : Nat) (cs : List Char) : tokensFrom i 0 (')' :: cs) =
    (tokensFrom (i + 1) 0 cs).map ((i, .closing) :: ·) := rfl

namespace Lexes

variable {rest : List Char} {ts : List Token}

lemma nil : Lexes [] [] := fun _ => ⟨[], rfl, rfl⟩

lemma blank {c : Char} (hc : isBlank c = true) (h : Lexes rest ts) : Lexes (c :: rest) ts := by
  intro i
  obtain ⟨placed, hp, hm⟩ := h (i + 1)
  refine ⟨placed, ?_, hm⟩
  rw [tokensFrom.eq_def]
  simp [hc, hp]

lemma op (o : Op) (h : Lexes rest ts) : Lexes (o.char :: rest) (.op o :: ts) := by
  intro i
  obtain ⟨hb, hn, hw, h1, h2, ho⟩ := classes_char o
  obtain ⟨placed, hp, hm⟩ := h (i + 1)
  refine ⟨(i, .op o) :: placed, ?_, by rw [List.map_cons, hm]⟩
  rw [tokensFrom.eq_def]
  simp [hb, hn, hw, ho, h1, h2, hp, Except.map]

lemma opening (h : Lexes rest ts) : Lexes ('(' :: rest) (.opening :: ts) := by
  intro i
  obtain ⟨placed, hp, hm⟩ := h (i + 1)
  refine ⟨(i, .opening) :: placed, ?_, by rw [List.map_cons, hm]⟩
  rw [tokensFrom_opening, hp]
  rfl

lemma closing (h : Lexes rest ts) : Lexes (')' :: rest) (.closing :: ts) := by
  intro i
  obtain ⟨placed, hp, hm⟩ := h (i + 1)
  refine ⟨(i, .closing) :: placed, ?_, by rw [List.map_cons, hm]⟩
  rw [tokensFrom_closing, hp]
  rfl

lemma name {s : List Char} (hs : s ≠ []) (hall : ∀ c ∈ s, isNameChar c = true)
    (hr : rest.head?.any isNameChar = false) (h : Lexes rest ts) :
    Lexes (s ++ rest) (.name (String.ofList s) :: ts) := by
  intro i
  obtain ⟨c, cs, rfl⟩ := List.exists_cons_of_ne_nil hs
  rw [List.forall_mem_cons] at hall
  obtain ⟨hb, hn⟩ := isBlank_of_isNameChar hall.1
  obtain ⟨placed, hp, hm⟩ := h (i + 1 + cs.length)
  refine ⟨(i, .name (String.ofList (c :: cs))) :: placed, ?_, by rw [List.map_cons, hm]⟩
  rw [List.cons_append, tokensFrom.eq_def]
  simp only [hb, hn, hall.1, takeWhile_append hall.2 hr, tokensFrom_skip, hp]
  rfl

lemma number {s : List Char} {x : Float} (hs : s ≠ []) (hall : ∀ c ∈ s, isNumberChar c = true)
    (hr : rest.head?.any isNumberChar = false) (hx : Decimal.read? s = some x) (h : Lexes rest ts) :
    Lexes (s ++ rest) (.number x :: ts) := by
  intro i
  obtain ⟨c, cs, rfl⟩ := List.exists_cons_of_ne_nil hs
  rw [List.forall_mem_cons] at hall
  have hb := isBlank_of_isNumberChar hall.1
  obtain ⟨placed, hp, hm⟩ := h (i + 1 + cs.length)
  refine ⟨(i, .number x) :: placed, ?_, by rw [List.map_cons, hm]⟩
  rw [List.cons_append, tokensFrom.eq_def]
  simp only [hb, hall.1, takeWhile_append hall.2 hr, hx, tokensFrom_skip, hp]
  rfl

end Lexes

end Tariff.Formula
