import Tariff.Proofs.Decimal.Nearest
import Tariff.Proofs.Decimal.Packed

/-!
The interval of the numbers that round to a finite number. It reaches half a unit in the last place
up, and as far down, but for a power of two half as far; its ends belong to it if the mantissa is
even. The intervals of different numbers do not overlap.
-/

namespace Tariff.Decimal

/-- How far the interval reaches down, in units in the last place. -/
def below (m : ℕ) (q : ℤ) : ℚ := if m = 2 ^ 52 ∧ -1074 < q then 1 / 4 else 1 / 2

/-- A number that rounds to `m * 2 ^ q`. -/
structure RoundsTo (v : ℚ) (m : ℕ) (q : ℤ) : Prop where
  lower : (m - below m q) * 2 ^ q ≤ v
  upper : v ≤ (m + 1 / 2) * 2 ^ q
  inside : m % 2 = 1 → (m - below m q) * 2 ^ q < v ∧ v < (m + 1 / 2) * 2 ^ q

lemma below_bounds (m : ℕ) (q : ℤ) : 0 < below m q ∧ below m q ≤ 1 / 2 := by
  unfold below
  split_ifs <;> norm_num

variable {m m' : ℕ} {q q' i : ℤ} {v w : ℚ}

/-! ### The test -/

lemma lowerQuarters_eq (hm : 0 < m) (q : ℤ) :
    (lowerQuarters m q : ℚ) * 2 ^ (q - 2) = (m - below m q) * 2 ^ q := by
  have hquarters : (lowerQuarters m q : ℚ) = 4 * (m - below m q) := by
    unfold lowerQuarters below
    simp only [Nat.pow_eq]
    split_ifs
    · rw [Nat.cast_sub (by omega)]
      push_cast
      ring
    · rw [Nat.cast_sub (by omega)]
      push_cast
      ring
  rw [hquarters, zpow_sub₀ two_ne_zero]
  ring

/-- **A decimal passes the test if it lies in the interval**, and only then. -/
lemma readsBack_iff (hm : 0 < m) {d : ℕ} :
    readsBack m q i d = true ↔ RoundsTo (Scaled.mk d i).value m q := by
  have hden : (onGrid (lowerQuarters m q) (q - 2) i).2 = (onGrid (4 * m + 2) (q - 2) i).2 := rfl
  have hlower := onGrid_le_iff (m := lowerQuarters m q) (d := d) (q := q - 2) (i := i)
  have hupper := le_onGrid_iff (m := 4 * m + 2) (d := d) (q := q - 2) (i := i)
  have hlower' := (le_onGrid_iff (m := lowerQuarters m q) (d := d) (q := q - 2) (i := i)).not
  have hupper' := (onGrid_le_iff (m := 4 * m + 2) (d := d) (q := q - 2) (i := i)).not
  rw [hden, lowerQuarters_eq hm] at hlower hlower'
  rw [quarters_eq] at hupper hupper'
  rw [not_le, not_le] at hlower' hupper'
  unfold readsBack
  dsimp only
  rw [hden]
  split_ifs with heven
  · rw [Bool.and_eq_true, decide_eq_true_eq, decide_eq_true_eq, hlower, hupper]
    exact ⟨fun h => ⟨h.1, h.2, fun hodd => by omega⟩, fun h => ⟨h.lower, h.upper⟩⟩
  · rw [Bool.and_eq_true, decide_eq_true_eq, decide_eq_true_eq, hlower', hupper']
    exact ⟨fun h => ⟨h.1.le, h.2.le, fun _ => h⟩, fun h => h.inside (by omega)⟩

/-! ### What lies in it -/

/-- What is near enough to the number lies in the interval. -/
lemma Canonical.roundsTo (hc : Canonical m q) (hlo : m * 2 ^ q - m * 2 ^ q / 2 ^ 54 < v)
    (hhi : v < m * 2 ^ q + m * 2 ^ q / 2 ^ 54) : RoundsTo v m q := by
  have hunit : (0 : ℚ) < 2 ^ q := by positivity
  have hlt : (m : ℚ) < 2 ^ 53 := by exact_mod_cast hc.lt
  have hpart : (m : ℚ) / 2 ^ 54 ≤ below m q := by
    unfold below
    split_ifs with hpower
    · rw [hpower.1]
      norm_num
    · rw [div_le_iff₀ (by positivity)]
      linarith
  have hhalf : (m : ℚ) / 2 ^ 54 ≤ 1 / 2 := hpart.trans (below_bounds m q).2
  have hlower : (m - below m q) * 2 ^ q < v := by
    have := mul_le_mul_of_nonneg_right hpart hunit.le
    linarith
  have hupper : v < (m + 1 / 2) * 2 ^ q := by
    have := mul_le_mul_of_nonneg_right hhalf hunit.le
    linarith
  exact ⟨hlower.le, hupper.le, fun _ => ⟨hlower, hupper⟩⟩

lemma Canonical.roundsTo_self (hc : Canonical m q) : RoundsTo (m * 2 ^ q) m q := by
  have hm : (0 : ℚ) < m := Nat.cast_pos.mpr hc.pos
  have hpart : (0 : ℚ) < m * 2 ^ q / 2 ^ 54 := by positivity
  exact hc.roundsTo (by linarith) (by linarith)

lemma RoundsTo.pos (h : RoundsTo v m q) (hm : 0 < m) : 0 < v := by
  have hone : (1 : ℚ) ≤ m := by exact_mod_cast hm
  have hpos : 0 < (m - below m q) * 2 ^ q :=
    mul_pos (by linarith [(below_bounds m q).2]) (by positivity)
  exact hpos.trans_le h.lower

/-- No number of the interval is more than half as large again. -/
lemma RoundsTo.le_mul (h : RoundsTo v m q) (hm : 0 < m) : v ≤ 3 / 2 * (m * 2 ^ q) := by
  have hone : (1 : ℚ) ≤ m := by exact_mod_cast hm
  calc v ≤ (m + 1 / 2) * 2 ^ q := h.upper
    _ ≤ (m + 1 / 2 * m) * 2 ^ q := mul_le_mul_of_nonneg_right (by linarith) (by positivity)
    _ = 3 / 2 * (m * 2 ^ q) := by ring

/-! ### Order -/

/-- A mantissa of all places does not reach far down, not even that of a power of two. -/
lemma Canonical.le_sub_below (hc : Canonical m q) (hq : -1074 < q) :
    (2 ^ 52 - 1 / 4 : ℚ) ≤ m - below m q := by
  have hfull := hc.full hq
  unfold below
  split_ifs with hpower
  · rw [hpower.1]
    norm_num
  · have hlt : 2 ^ 52 + 1 ≤ m := by omega
    have hlt : (2 ^ 52 + 1 : ℚ) ≤ m := by exact_mod_cast hlt
    linarith

lemma Canonical.cases_of_le (hc : Canonical m q) (hc' : Canonical m' q')
    (h : (m * 2 ^ q : ℚ) ≤ m' * 2 ^ q') : q < q' ∨ q = q' ∧ m ≤ m' := by
  rcases lt_trichotomy q q' with hlt | rfl | hgt
  · exact .inl hlt
  · have hle := le_of_mul_le_mul_right h (by positivity)
    exact .inr ⟨rfl, by exact_mod_cast hle⟩
  · -- a mantissa of all places against one of as many at most, a place behind
    have hfull : (2 ^ 52 : ℚ) ≤ m := by exact_mod_cast hc.full (hc'.least.trans_lt hgt)
    have hlt : (m' : ℚ) < 2 ^ 53 := by exact_mod_cast hc'.lt
    have hpow : (2 : ℚ) ^ (q' + 1) ≤ 2 ^ q := zpow_le_zpow_right₀ one_le_two (by omega)
    have hlarger : (m' * 2 ^ q' : ℚ) < m * 2 ^ q :=
      calc (m' * 2 ^ q' : ℚ) < 2 ^ 53 * 2 ^ q' := mul_lt_mul_of_pos_right hlt (by positivity)
        _ = 2 ^ 52 * 2 ^ (q' + 1) := by rw [zpow_add_one₀ two_ne_zero]; ring
        _ ≤ m * 2 ^ q := mul_le_mul hfull hpow (by positivity) (by positivity)
    exact absurd h (not_le.mpr hlarger)

/-- **The intervals are in order**: what rounds to the smaller of two numbers is no larger than what
rounds to the other. -/
lemma RoundsTo.le_of_lt (h : RoundsTo v m q) (h' : RoundsTo w m' q') (hc : Canonical m q)
    (hc' : Canonical m' q') (hlt : (m * 2 ^ q : ℚ) < m' * 2 ^ q') : v ≤ w := by
  refine h.upper.trans (le_trans ?_ h'.lower)
  rcases hc.cases_of_le hc' hlt.le with hq | ⟨rfl, -⟩
  · have hm : m + 1 ≤ 2 ^ 53 := hc.lt
    have hm : (m + 1 : ℚ) ≤ 2 ^ 53 := by exact_mod_cast hm
    calc (m + 1 / 2 : ℚ) * 2 ^ q ≤ (2 ^ 53 - 1 / 2) * 2 ^ q :=
          mul_le_mul_of_nonneg_right (by linarith) (by positivity)
      _ = (2 ^ 52 - 1 / 4) * 2 ^ (q + 1) := by rw [zpow_add_one₀ two_ne_zero]; ring
      _ ≤ (2 ^ 52 - 1 / 4) * 2 ^ q' :=
        mul_le_mul_of_nonneg_left (zpow_le_zpow_right₀ one_le_two (by omega)) (by norm_num)
      _ ≤ (m' - below m' q') * 2 ^ q' :=
        mul_le_mul_of_nonneg_right (hc'.le_sub_below (hc.least.trans_lt hq)) (by positivity)
  · have hm := lt_of_mul_lt_mul_right hlt (by positivity)
    have hm : m + 1 ≤ m' := by exact_mod_cast hm
    have hm : (m + 1 : ℚ) ≤ m' := by exact_mod_cast hm
    exact mul_le_mul_of_nonneg_right (by linarith [(below_bounds m' q).2]) (by positivity)

end Tariff.Decimal
