import Mathlib.Algebra.Order.Field.Basic
import Mathlib.Algebra.Order.Field.Power
import Mathlib.Data.Rat.Cast.Order
import Mathlib.Tactic.FieldSimp
import Mathlib.Tactic.Linarith
import Mathlib.Tactic.Positivity
import Mathlib.Tactic.Ring
import Tariff.Decimal.Binary

/-!
Rounding to the nearest whole number, a half to the even one. A quotient is rounded so, and so is a
mantissa with two more bits, of which the second stands for all that are behind the first.
-/

namespace Tariff.Decimal

open Float.Model.UnpackedFloat

/-- The whole number nearest to another number, the even one if there are two. -/
structure IsNearest (n : ℕ) (v : ℚ) : Prop where
  lower : (n : ℚ) - 1 / 2 ≤ v
  upper : v ≤ n + 1 / 2
  tie : v = n - 1 / 2 ∨ v = n + 1 / 2 → n % 2 = 0

namespace IsNearest

variable {m n : ℕ} {v w : ℚ}

/-- **Rounding is monotone.** -/
lemma mono (hm : IsNearest m v) (hn : IsNearest n w) (hvw : v ≤ w) : m ≤ n := by
  by_contra hlt
  have hstep : n + 1 ≤ m := by omega
  have hcast : (n : ℚ) + 1 ≤ m := by exact_mod_cast hstep
  have hlo := hm.lower
  have hhi := hn.upper
  -- both are halfway between two neighbours, and both are even
  have hv : v = m - 1 / 2 := by linarith
  have hw : w = n + 1 / 2 := by linarith
  have hnext : (m : ℚ) = n + 1 := by linarith
  have hnext : m = n + 1 := by exact_mod_cast hnext
  have heven := hm.tie (.inl hv)
  have heven' := hn.tie (.inr hw)
  omega

lemma unique (hm : IsNearest m v) (hn : IsNearest n v) : m = n :=
  Nat.le_antisymm (hm.mono hn le_rfl) (hn.mono hm le_rfl)

end IsNearest

/-! ### Mantissas with residual bits -/

/-- Where a number lies, by a mantissa with its residual bits. -/
def Shows : ExtendedMantissa → ℚ → Prop
  | ⟨m, false, false⟩, v => v = m
  | ⟨m, false, true⟩, v => m < v ∧ v < m + 1 / 2
  | ⟨m, true, false⟩, v => v = m + 1 / 2
  | ⟨m, true, true⟩, v => m + 1 / 2 < v ∧ v < m + 1

namespace Shows

variable {em : ExtendedMantissa} {v : ℚ}

lemma bounds (h : Shows em v) : (em.mantissa : ℚ) ≤ v ∧ v < em.mantissa + 1 := by
  obtain ⟨m, r, s⟩ := em
  cases r <;> cases s <;> simp only [Shows] at h ⊢ <;> constructor <;> linarith

/-- A place less: the bit that is lost is the new round bit. -/
lemma shiftRightOne (h : Shows em v) : Shows em.shiftRightOne (v / 2) := by
  obtain ⟨m, r, s⟩ := em
  rcases Nat.mod_two_eq_zero_or_one m with hm | hm
  · have hhalf : (m : ℚ) = 2 * (m / 2 : ℕ) := by exact_mod_cast (show m = 2 * (m / 2) by omega)
    cases r <;> cases s <;> simp [Shows, ExtendedMantissa.shiftRightOne, hm] at h ⊢ <;>
      (try constructor) <;> linarith
  · have hhalf : (m : ℚ) = 2 * (m / 2 : ℕ) + 1 := by
      exact_mod_cast (show m = 2 * (m / 2) + 1 by omega)
    cases r <;> cases s <;> simp [Shows, ExtendedMantissa.shiftRightOne, hm] at h ⊢ <;>
      (try constructor) <;> linarith

lemma shiftRight (h : Shows em v) (k : ℕ) : Shows (em >>> k) (v / 2 ^ k) := by
  induction k with
  | zero =>
    rw [pow_zero, div_one]
    exact h
  | succ k ih =>
    have hstep : em >>> (k + 1) = (em >>> k).shiftRightOne := rfl
    rw [hstep, pow_succ, ← div_div]
    exact ih.shiftRightOne

/-- **What the bits are rounded to is nearest.** -/
lemma isNearest (h : Shows em v) : IsNearest em.roundedMantissa v := by
  obtain ⟨m, r, s⟩ := em
  cases r <;> cases s <;>
    simp only [Shows, ExtendedMantissa.roundedMantissa, ExtendedMantissa.accuracy,
      Accuracy.roundToNearestEven] at h ⊢
  · exact ⟨by linarith, by linarith, fun ht => by rcases ht with ht | ht <;> linarith⟩
  · exact ⟨by linarith, by linarith, fun ht => by rcases ht with ht | ht <;> linarith⟩
  · rcases Nat.mod_two_eq_zero_or_one m with hm | hm <;> rw [hm]
    · exact ⟨by push_cast; linarith, by push_cast; linarith, fun _ => by omega⟩
    · exact ⟨by push_cast; linarith, by push_cast; linarith, fun _ => by omega⟩
  · refine ⟨by push_cast; linarith, by push_cast; linarith, fun ht => ?_⟩
    push_cast at ht
    rcases ht with ht | ht <;> linarith

end Shows

/-! ### Whole numbers and quotients -/

lemma shows_exact (m : ℕ) : Shows (ExtendedMantissa.ofMantissaAndAccuracy m .exact) m := rfl

/-- A quotient is shown by its whole part and by what its remainder is of the divisor. -/
lemma shows_quotient (n : ℕ) {d : ℕ} (hd : 0 < d) :
    Shows (ExtendedMantissa.ofMantissaAndAccuracy (n / d) (accuracyOfFraction (n % d) d))
      (n / d) := by
  have hd' : (0 : ℚ) < d := Nat.cast_pos.mpr hd
  have hn : (n : ℚ) = d * (n / d : ℕ) + (n % d : ℕ) := by exact_mod_cast (Nat.div_add_mod n d).symm
  have hlt : ((n % d : ℕ) : ℚ) < d := Nat.cast_lt.mpr (Nat.mod_lt n hd)
  set q := n / d
  set r := n % d
  have hv : (n / d : ℚ) = q + r / d := by
    rw [hn]
    field_simp
  have hpart : (r / d : ℚ) < 1 := (div_lt_one hd').mpr hlt
  rw [hv]
  unfold accuracyOfFraction
  split_ifs with h0
  · simp [ExtendedMantissa.ofMantissaAndAccuracy, Shows, h0]
  · have hpos : (0 : ℚ) < r / d := div_pos (Nat.cast_pos.mpr (Nat.pos_of_ne_zero h0)) hd'
    cases hc : compare (2 * r) d with
    | lt =>
      have hhalf : (2 * r : ℚ) < d := by exact_mod_cast Nat.compare_eq_lt.mp hc
      have hhalf : (r / d : ℚ) < 1 / 2 := by rw [div_lt_iff₀ hd']; linarith
      exact ⟨by linarith, by linarith⟩
    | eq =>
      have hhalf : (2 * r : ℚ) = d := by exact_mod_cast Nat.compare_eq_eq.mp hc
      have hhalf : (r / d : ℚ) = 1 / 2 := by rw [div_eq_iff hd'.ne']; linarith
      change (q + r / d : ℚ) = q + 1 / 2
      rw [hhalf]
    | gt =>
      have hhalf : (d : ℚ) < 2 * r := by exact_mod_cast Nat.compare_eq_gt.mp hc
      have hhalf : (1 / 2 : ℚ) < r / d := by rw [lt_div_iff₀ hd']; linarith
      exact ⟨by linarith, by linarith⟩

lemma roundDiv_eq_roundedMantissa (n : ℕ) {d : ℕ} (hd : 0 < d) : roundDiv n d =
    (ExtendedMantissa.ofMantissaAndAccuracy (n / d)
      (accuracyOfFraction (n % d) d)).roundedMantissa := by
  unfold roundDiv accuracyOfFraction
  split_ifs with h0
  · rw [h0, Nat.mul_zero, Nat.compare_eq_lt.mpr hd]
    rfl
  · cases compare (2 * (n % d)) d with
    | lt => rfl
    | gt => rfl
    | eq =>
      change (if n / d % 2 = 0 then n / d else n / d + 1) = n / d + n / d % 2
      split_ifs <;> omega

lemma isNearest_roundDiv (n : ℕ) {d : ℕ} (hd : 0 < d) : IsNearest (roundDiv n d) (n / d) := by
  rw [roundDiv_eq_roundedMantissa n hd]
  exact (shows_quotient n hd).isNearest

/-! ### Digits behind the point -/

def Binary.magnitude (b : Binary) : ℚ := b.mantissa * 2 ^ b.exponent

lemma magnitude_nonneg (b : Binary) : 0 ≤ b.magnitude := by
  unfold Binary.magnitude
  positivity

lemma magnitude_eq_zero_iff {b : Binary} : b.magnitude = 0 ↔ b.mantissa = 0 := by
  have hpow : (2 : ℚ) ^ b.exponent ≠ 0 := zpow_ne_zero _ two_ne_zero
  unfold Binary.magnitude
  rw [mul_eq_zero_iff_right hpow, Nat.cast_eq_zero]

/-- A number without its sign, rounded to steps of the last of so many digits. -/
def Binary.steps (places : ℕ) (b : Binary) : ℕ :=
  roundDiv (b.mantissa * Nat.pow 2 b.exponent.toNat * Nat.pow 10 places)
    (Nat.pow 2 (-b.exponent).toNat)

/-- **The digits behind the point are the nearest ones.** -/
lemma isNearest_steps (places : ℕ) (b : Binary) :
    IsNearest (b.steps places) (b.magnitude * 10 ^ places) := by
  have hquotient : b.magnitude * 10 ^ places =
      ((b.mantissa * Nat.pow 2 b.exponent.toNat * Nat.pow 10 places : ℕ) : ℚ) /
        (Nat.pow 2 (-b.exponent).toNat : ℕ) := by
    unfold Binary.magnitude
    rw [← Int.toNat_sub_toNat_neg b.exponent, zpow_sub₀ two_ne_zero, zpow_natCast, zpow_natCast,
      Int.toNat_sub_toNat_neg]
    simp only [Nat.pow_eq, Nat.cast_mul, Nat.cast_pow, Nat.cast_ofNat]
    ring
  rw [hquotient]
  exact isNearest_roundDiv _ (Nat.two_pow_pos _)

end Tariff.Decimal
