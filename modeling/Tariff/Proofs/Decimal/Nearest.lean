import Mathlib.Algebra.Order.Field.Basic
import Mathlib.Algebra.Order.Field.Power
import Mathlib.Data.Rat.Cast.Order
import Mathlib.Tactic.FieldSimp
import Mathlib.Tactic.Linarith
import Mathlib.Tactic.Positivity
import Mathlib.Tactic.Ring
import Tariff.Decimal.Shortest

/-!
The shortest decimal that reads back is near the number: it exceeds it by no more than half a unit
in the last place.
-/

namespace Tariff.Decimal

def Scaled.value (d : Scaled) : ℚ := d.digits * 10 ^ d.exponent

lemma zpow_eq_div {a : ℚ} (ha : a ≠ 0) (z : ℤ) : a ^ z = a ^ z.toNat / a ^ (-z).toNat := by
  rw [← zpow_natCast, ← zpow_natCast, ← zpow_sub₀ ha, Int.toNat_sub_toNat_neg]

/-- A number lies between two powers of two, the lower with its first place alone. -/
lemma two_zpow_bounds {m : ℕ} (hm : 0 < m) (q : ℤ) :
    (2 : ℚ) ^ (m.log2 + q) ≤ m * 2 ^ q ∧ (m * 2 ^ q : ℚ) < 2 ^ (m.log2 + 1 + q) := by
  have hlo : ((2 ^ m.log2 : ℕ) : ℚ) ≤ m := Nat.cast_le.mpr (Nat.log2_self_le hm.ne')
  have hhi : (m : ℚ) < (2 ^ (m.log2 + 1) : ℕ) := Nat.cast_lt.mpr Nat.lt_log2_self
  push_cast at hlo hhi
  have hcast : (m.log2 : ℤ) + 1 = (m.log2 + 1 : ℕ) := rfl
  rw [zpow_add₀ two_ne_zero, zpow_natCast, hcast, zpow_add₀ two_ne_zero, zpow_natCast]
  exact ⟨mul_le_mul_of_nonneg_right hlo (by positivity),
    mul_lt_mul_of_pos_right hhi (by positivity)⟩

lemma onGrid_eq (m : ℕ) (q i : ℤ) :
    ((onGrid m q i).1 : ℚ) = m * 2 ^ q / 10 ^ i * (onGrid m q i).2 := by
  unfold onGrid
  rw [zpow_eq_div two_ne_zero q, zpow_eq_div (by norm_num : (10 : ℚ) ≠ 0) i]
  simp only [Nat.pow_eq, Nat.cast_mul, Nat.cast_pow, Nat.cast_ofNat]
  field_simp

lemma onGrid_snd_pos (m : ℕ) (q i : ℤ) : 0 < (onGrid m q i).2 :=
  Nat.mul_pos (Nat.pow_pos (by decide)) (Nat.pow_pos (by decide))

lemma onGrid_le_iff {m d : ℕ} {q i : ℤ} : (onGrid m q i).1 ≤ d * (onGrid m q i).2 ↔
    (m * 2 ^ q : ℚ) ≤ (Scaled.mk d i).value := by
  have hpos : (0 : ℚ) < (onGrid m q i).2 := Nat.cast_pos.mpr (onGrid_snd_pos _ _ _)
  have hcast : (onGrid m q i).1 ≤ d * (onGrid m q i).2 ↔
      ((onGrid m q i).1 : ℚ) ≤ d * (onGrid m q i).2 := by exact_mod_cast Iff.rfl
  rw [hcast, onGrid_eq, mul_le_mul_iff_left₀ hpos, div_le_iff₀ (by positivity)]
  rfl

lemma le_onGrid_iff {m d : ℕ} {q i : ℤ} : d * (onGrid m q i).2 ≤ (onGrid m q i).1 ↔
    (Scaled.mk d i).value ≤ (m * 2 ^ q : ℚ) := by
  have hpos : (0 : ℚ) < (onGrid m q i).2 := Nat.cast_pos.mpr (onGrid_snd_pos _ _ _)
  have hcast : d * (onGrid m q i).2 ≤ (onGrid m q i).1 ↔
      (d * (onGrid m q i).2 : ℚ) ≤ (onGrid m q i).1 := by exact_mod_cast Iff.rfl
  rw [hcast, onGrid_eq, mul_le_mul_iff_left₀ hpos, le_div_iff₀ (by positivity)]
  rfl

lemma quarters_eq (m : ℕ) (q : ℤ) : ((4 * m + 2 : ℕ) : ℚ) * 2 ^ (q - 2) = (m + 1 / 2) * 2 ^ q := by
  rw [zpow_sub₀ two_ne_zero]
  push_cast
  ring

lemma le_of_readsBack {m d : ℕ} {q i : ℤ} (h : readsBack m q i d = true) :
    (Scaled.mk d i).value ≤ (m + 1 / 2) * 2 ^ q := by
  have hden : (onGrid (lowerQuarters m q) (q - 2) i).2 = (onGrid (4 * m + 2) (q - 2) i).2 := rfl
  unfold readsBack at h
  dsimp only at h
  rw [hden] at h
  rw [← quarters_eq, ← le_onGrid_iff]
  split_ifs at h
  · exact of_decide_eq_true (Bool.and_eq_true_iff.mp h).2
  · exact (of_decide_eq_true (Bool.and_eq_true_iff.mp h).2).le

lemma readsBack_of_nearestOn {tie : Tie} {m d : ℕ} {q i : ℤ} (h : nearestOn tie m q i = some d) :
    readsBack m q i d = true := by
  unfold nearestOn at h
  dsimp only at h
  split at h
  next => cases h
  next hs _ => cases h; exact hs
  next _ hs => cases h; exact hs
  next hs hs' =>
    split at h <;> cases h
    · exact hs
    · exact hs'
    · exact hs'
    · split_ifs
      · exact hs
      · exact hs'

lemma value_exact (m : ℕ) (q : ℤ) : (exact m q).value = m * 2 ^ q := by
  unfold exact Scaled.value
  split_ifs with hq
  · obtain ⟨n, rfl⟩ := Int.eq_ofNat_of_zero_le hq
    simp
  · obtain ⟨n, hn⟩ := Int.eq_ofNat_of_zero_le (show 0 ≤ -q by omega)
    obtain rfl : q = -n := by omega
    have hten : (10 : ℚ) ^ n = 5 ^ n * 2 ^ n := by rw [← mul_pow]; norm_num
    simp only [neg_neg, Int.toNat_natCast, Nat.pow_eq, Nat.cast_mul, Nat.cast_pow, Nat.cast_ofNat,
      zpow_neg, zpow_natCast, hten]
    field_simp

/-- **The shortest decimal is at most half a unit too large.** -/
theorem value_shortest_le (tie : Tie) (m : ℕ) (q : ℤ) :
    (shortest tie m q).value ≤ (m + 1 / 2) * 2 ^ q := by
  unfold shortest
  dsimp only
  cases hfound : (List.range 18).findSome? fun n : ℕ =>
      (nearestOn tie m q (scale m q - n)).map (Scaled.mk · (scale m q - n)) with
  | none =>
    rw [Option.getD_none, value_exact]
    exact mul_le_mul_of_nonneg_right (by linarith) (by positivity)
  | some d =>
    obtain ⟨n, -, hn⟩ := List.exists_of_findSome?_eq_some hfound
    obtain ⟨digits, hdigits, rfl⟩ := Option.map_eq_some_iff.mp hn
    exact le_of_readsBack (readsBack_of_nearestOn hdigits)

end Tariff.Decimal
