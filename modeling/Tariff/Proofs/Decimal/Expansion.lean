import Mathlib.Algebra.Order.Field.Basic
import Mathlib.Data.Rat.Cast.Order
import Mathlib.Tactic.FieldSimp
import Mathlib.Tactic.Positivity
import Tariff.Proofs.Decimal.Digits
import Tariff.Proofs.Text.Trim

/-!
The decimal expansion of a number that has one: digits without a zero in front that could be left
out, and behind the point digits without a zero at the end. A number has at most one.
-/

namespace Tariff.Decimal

open Tariff.Text

/-! ### Digits of a number -/

lemma digitChar_of_isAsciiDigit {c : Char} (h : isAsciiDigit c = true) :
    c.toNat - '0'.toNat < 10 ∧ Nat.digitChar (c.toNat - '0'.toNat) = c := by
  have hascii := ascii_of_isAsciiDigit h
  revert h
  exact forall_ascii (P := fun c => isAsciiDigit c = true →
    c.toNat - '0'.toNat < 10 ∧ Nat.digitChar (c.toNat - '0'.toNat) = c) (by decide +kernel) hascii

lemma digitChars_natOfDigits {ds : List Char} (hne : ds ≠ []) (h : AllDigits ds)
    (hzero : ds.head? = some '0' → ds = ['0']) : digitChars (natOfDigits ds) = ds := by
  induction ds using List.reverseRecOn with
  | nil => exact absurd rfl hne
  | append_singleton ds c ih =>
    obtain ⟨hlt, hc⟩ := digitChar_of_isAsciiDigit (h c (by simp))
    have hvalue : natOfDigits (ds ++ [c]) = natOfDigits ds * 10 + (c.toNat - '0'.toNat) := by
      rw [natOfDigits_append]
      simp [natOfDigits]
    rw [hvalue]
    unfold digitChars
    rcases List.eq_nil_or_concat ds with rfl | ⟨init, last, hds⟩
    · have hnil : natOfDigits [] = 0 := rfl
      rw [hnil, Nat.zero_mul, Nat.zero_add, Nat.toDigits_of_lt_base hlt, hc]
      rfl
    · have hds : ds ≠ [] := by simp [hds]
      -- more digits behind it, so the first is no zero
      have hhead : ds.head? ≠ some '0' := fun hz => by
        have := congrArg List.length (hzero (by rw [List.head?_append, hz]; rfl))
        rw [List.length_append, List.length_singleton, List.length_singleton] at this
        exact hds (List.length_eq_zero_iff.mp (by omega))
      have hih := ih hds (fun d hd => h d (by simp [hd])) fun hz => absurd hz hhead
      have hpos : 0 < natOfDigits ds := by
        refine Nat.pos_of_ne_zero fun h0 => hhead ?_
        rw [← hih, h0]
        rfl
      have hdiv : (natOfDigits ds * 10 + (c.toNat - '0'.toNat)) / 10 = natOfDigits ds := by omega
      have hmod : (natOfDigits ds * 10 + (c.toNat - '0'.toNat)) % 10 = c.toNat - '0'.toNat := by
        omega
      rw [Nat.toDigits_of_base_le (by decide) (by omega), hdiv, hmod, hc]
      exact congrArg (· ++ [c]) hih

/-- So many digits are known by the number that they say. -/
lemma eq_of_natOfDigits {ds es : List Char} (hds : AllDigits ds) (hes : AllDigits es)
    (hlen : ds.length = es.length) (h : natOfDigits ds = natOfDigits es) : ds = es := by
  -- with a one in front they have no zero in front
  have hdigits {l : List Char} (hl : AllDigits l) :
      digitChars (natOfDigits (['1'] ++ l)) = '1' :: l :=
    digitChars_natOfDigits (by simp)
      (fun c hc => by
        rcases List.mem_cons.mp hc with rfl | hc
        · rfl
        · exact hl c hc)
      fun hz => absurd (Option.some.inj hz) (by decide)
  have hvalue : natOfDigits (['1'] ++ ds) = natOfDigits (['1'] ++ es) := by
    rw [natOfDigits_append, natOfDigits_append, hlen, h]
  have hcons : '1' :: ds = '1' :: es :=
    calc '1' :: ds = digitChars (natOfDigits (['1'] ++ ds)) := (hdigits hds).symm
      _ = digitChars (natOfDigits (['1'] ++ es)) := congrArg digitChars hvalue
      _ = '1' :: es := hdigits hes
  exact (List.cons.inj hcons).2

/-! ### Expansions -/

structure Expansion (x : ℚ) (whole fraction : List Char) : Prop where
  digits : AllDigits whole ∧ AllDigits fraction
  whole_ne_nil : whole ≠ []
  leading : whole.head? = some '0' → whole = ['0']
  trailing : fraction.getLast? ≠ some '0'
  value : x = natOfDigits (whole ++ fraction) / 10 ^ fraction.length

/-- A text is the decimal expansion of a number. -/
def IsExpansion (x : ℚ) (s : List Char) : Prop :=
  ∃ whole fraction, Expansion x whole fraction ∧ s = whole ++ point fraction

/-- Zero is written as one digit. -/
lemma expansion_zero : Expansion 0 ['0'] [] where
  digits := ⟨fun c hc => by rw [List.mem_singleton.mp hc]; rfl, List.forall_mem_nil _⟩
  whole_ne_nil := by simp
  leading := fun _ => rfl
  trailing := by simp
  value := by simp [natOfDigits]

namespace Expansion

variable {x : ℚ} {w f w' f' : List Char}

/-- The last digit behind the point is no zero. -/
lemma mod_ne_zero (h : Expansion x w f) (hf : f ≠ []) : natOfDigits (w ++ f) % 10 ≠ 0 := by
  obtain ⟨init, last, hcat⟩ := (List.eq_nil_or_concat f).resolve_left hf
  rw [List.concat_eq_append] at hcat
  subst hcat
  have hdigit := h.digits.2 last (by simp)
  obtain ⟨hlt, hchar⟩ := digitChar_of_isAsciiDigit hdigit
  have hlast : natOfDigits [last] = last.toNat - '0'.toNat := by simp [natOfDigits]
  rw [← List.append_assoc, natOfDigits_append, hlast, List.length_singleton, Nat.pow_one]
  intro hmod
  have hzero : last.toNat - '0'.toNat = 0 := by omega
  rw [hzero] at hchar
  exact h.trailing (by rw [← hchar]; simp)

lemma length_le (h : Expansion x w f) (h' : Expansion x w' f') : f'.length ≤ f.length := by
  by_contra hlt
  obtain ⟨d, hd⟩ := Nat.exists_eq_add_of_lt (Nat.lt_of_not_le hlt)
  have hf' : f' ≠ [] := List.ne_nil_of_length_pos (by omega)
  refine h'.mod_ne_zero hf' ?_
  have hvalue : natOfDigits (w' ++ f') = natOfDigits (w ++ f) * 10 ^ (d + 1) := by
    have heq := h.value.symm.trans h'.value
    rw [hd, Nat.add_assoc, pow_add] at heq
    field_simp at heq
    exact_mod_cast heq.symm
  rw [hvalue, Nat.pow_succ, ← Nat.mul_assoc, Nat.mul_mod_left]

/-- **A number has at most one decimal expansion.** -/
lemma unique (h : Expansion x w f) (h' : Expansion x w' f') : w = w' ∧ f = f' := by
  have hlen : f.length = f'.length := Nat.le_antisymm (h'.length_le h) (h.length_le h')
  have hvalue : natOfDigits (w ++ f) = natOfDigits (w' ++ f') := by
    have heq := h.value.symm.trans h'.value
    rw [hlen] at heq
    field_simp at heq
    exact_mod_cast heq
  rw [natOfDigits_append, natOfDigits_append, hlen] at hvalue
  have hdiv {n r : ℕ} (hr : r < 10 ^ f'.length) :
      (n * 10 ^ f'.length + r) / 10 ^ f'.length = n := by
    rw [Nat.add_comm, Nat.add_mul_div_right _ _ (Nat.pow_pos (by decide)), Nat.div_eq_of_lt hr,
      Nat.zero_add]
  have hwhole : natOfDigits w = natOfDigits w' :=
    calc natOfDigits w = (natOfDigits w * 10 ^ f'.length + natOfDigits f) / 10 ^ f'.length :=
          (hdiv (hlen ▸ natOfDigits_lt h.digits.2)).symm
      _ = (natOfDigits w' * 10 ^ f'.length + natOfDigits f') / 10 ^ f'.length := by rw [hvalue]
      _ = natOfDigits w' := hdiv (natOfDigits_lt h'.digits.2)
  have hfraction : natOfDigits f = natOfDigits f' := by
    rw [hwhole] at hvalue
    omega
  refine ⟨?_, eq_of_natOfDigits h.digits.2 h'.digits.2 hlen hfraction⟩
  calc w = digitChars (natOfDigits w) :=
        (digitChars_natOfDigits h.whole_ne_nil h.digits.1 h.leading).symm
    _ = digitChars (natOfDigits w') := congrArg digitChars hwhole
    _ = w' := digitChars_natOfDigits h'.whole_ne_nil h'.digits.1 h'.leading

end Expansion

lemma IsExpansion.unique {x : ℚ} {s t : List Char} (hs : IsExpansion x s) (ht : IsExpansion x t) :
    s = t := by
  obtain ⟨w, f, h, rfl⟩ := hs
  obtain ⟨w', f', h', rfl⟩ := ht
  obtain ⟨rfl, rfl⟩ := h.unique h'
  rfl

lemma expansion_dropTail {w f : List Char} (hne : w ≠ []) (hw : AllDigits w) (hf : AllDigits f)
    (hzero : w.head? = some '0' → w = ['0']) :
    Expansion (natOfDigits (w ++ f) / 10 ^ f.length) w (dropTail (· == '0') f) := by
  have hsplit : f = dropTail (· == '0') f ++ f.rtakeWhile (· == '0') := by
    rw [dropTail_eq_rdropWhile, List.rdropWhile_append_rtakeWhile]
  have hzeros : f.rtakeWhile (· == '0') = List.replicate (f.rtakeWhile (· == '0')).length '0' :=
    List.eq_replicate_of_mem fun c hc => eq_of_beq (List.mem_rtakeWhile_imp (p := (· == '0')) hc)
  set g := dropTail (· == '0') f
  set j := (f.rtakeWhile (· == '0')).length
  rw [hzeros] at hsplit
  refine ⟨⟨hw, fun c hc => hf c (by rw [hsplit]; simp [hc])⟩, hne, hzero, ?_, ?_⟩
  · intro hlast
    have := getLast?_dropTail (· == '0') f '0' hlast
    exact absurd this (by decide)
  · have hnone : natOfDigits (List.replicate j '0') = 0 := by
      have := natOfDigits_zeros j []
      rwa [List.append_nil] at this
    have hvalue : natOfDigits (w ++ f) = natOfDigits (w ++ g) * 10 ^ j := by
      rw [hsplit, ← List.append_assoc, natOfDigits_append, hnone, List.length_replicate, add_zero]
    have hlen : f.length = g.length + j := by
      have := congrArg List.length hsplit
      rwa [List.length_append, List.length_replicate] at this
    rw [hvalue, hlen, pow_add]
    push_cast
    field_simp

lemma Expansion.natOfDigits_pos {x : ℚ} {w f : List Char} (h : Expansion x w f) (hx : 0 < x) :
    0 < natOfDigits (w ++ f) := by
  refine Nat.pos_of_ne_zero fun h0 => ?_
  have := h.value
  rw [h0, Nat.cast_zero, zero_div] at this
  exact absurd hx (by rw [this]; exact lt_irrefl 0)

end Tariff.Decimal
