import Mathlib.Algebra.Order.Floor.Semifield
import Mathlib.Data.Rat.Floor
import Tariff.Proofs.Decimal.Interval
import Tariff.Proofs.Lists

/-!
The shortest decimal that reads back. The steps of the finest grid are smaller than what a number of
53 places can tell apart, so one of the grids has a decimal in the interval; and what is found on
the coarsest of those does not end in a zero.
-/

namespace Tariff.Decimal

variable {m d : ℕ} {q i : ℤ} {tie : Tie}

/-! ### Powers of two and of ten -/

lemma ten_zpow_le_two_zpow {z l : ℤ} (hpos : 196 * z ≤ 59 * l) (hneg : 93 * z ≤ 28 * l) :
    (10 : ℚ) ^ z ≤ 2 ^ l := by
  rcases le_total 0 z with hz | hz
  · refine le_of_pow_le_pow_left₀ (n := 59) (by omega) (by positivity) ?_
    calc ((10 : ℚ) ^ z) ^ 59 = (10 ^ 59) ^ z := by rw [← zpow_natCast, ← zpow_natCast, zpow_comm]
      _ ≤ (2 ^ 196) ^ z := zpow_le_zpow_left₀ hz (by positivity) (by norm_num)
      _ = 2 ^ (196 * z) := by rw [← zpow_natCast, ← zpow_mul]; rfl
      _ ≤ 2 ^ (59 * l) := zpow_le_zpow_right₀ one_le_two hpos
      _ = (2 ^ l) ^ 59 := by rw [← zpow_natCast, ← zpow_mul, mul_comm]; rfl
  · refine le_of_pow_le_pow_left₀ (n := 28) (by omega) (by positivity) ?_
    calc ((10 : ℚ) ^ z) ^ 28 = ((10 ^ 28) ^ (-z))⁻¹ := by
          rw [zpow_neg, inv_inv, ← zpow_natCast, ← zpow_natCast, zpow_comm]
      _ ≤ ((2 ^ 93) ^ (-z))⁻¹ := inv_anti₀ (by positivity)
        (zpow_le_zpow_left₀ (by omega) (by positivity) (by norm_num))
      _ = 2 ^ (93 * z) := by rw [zpow_neg, inv_inv, ← zpow_natCast, ← zpow_mul]; rfl
      _ ≤ 2 ^ (28 * l) := zpow_le_zpow_right₀ one_le_two hneg
      _ = (2 ^ l) ^ 28 := by rw [← zpow_natCast, ← zpow_mul, mul_comm]; rfl

lemma two_zpow_le_ten_zpow {z l : ℤ} (hpos : 59 * l ≤ 196 * z) (hneg : 28 * l ≤ 93 * z) :
    (2 : ℚ) ^ l ≤ 10 ^ z := by
  have h := ten_zpow_le_two_zpow (z := -z) (l := -l) (by omega) (by omega)
  rw [zpow_neg, zpow_neg] at h
  exact (inv_le_inv₀ (by positivity) (by positivity)).mp h

/-! ### The leading digit -/

/-- **The scale is that of the leading digit.** -/
lemma scale_bounds (hc : Canonical m q) :
    (10 : ℚ) ^ (scale m q - 1) ≤ m * 2 ^ q ∧ (m * 2 ^ q : ℚ) < 10 ^ scale m q := by
  have hbelow (k : ℤ) : (onGrid m q k).1 < (onGrid m q k).2 ↔ (m * 2 ^ q : ℚ) < 10 ^ k := by
    have hone := (le_onGrid_iff (m := m) (d := 1) (q := q) (i := k)).not
    rw [Nat.one_mul, not_le, not_le] at hone
    rw [hone]
    unfold Scaled.value
    rw [Nat.cast_one, one_mul]
  have hlog := (Nat.log2_lt hc.pos.ne').mpr hc.lt
  have hleast := hc.least
  have hgreatest := hc.greatest
  obtain ⟨hlo, hhi⟩ := two_zpow_bounds hc.pos q
  unfold scale
  dsimp only
  simp only [decide_eq_true_eq, hbelow]
  set k := (m.log2 + q) * 30103 / 100000
  split_ifs with h h1
  · exact ⟨(ten_zpow_le_two_zpow (by omega) (by omega)).trans hlo, h⟩
  · rw [Int.add_sub_cancel]
    exact ⟨not_lt.mp h, h1⟩
  · have hk : k + 2 - 1 = k + 1 := by omega
    rw [hk]
    exact ⟨not_lt.mp h1, hhi.trans_le (two_zpow_le_ten_zpow (by omega) (by omega))⟩

/-! ### Neighbours on a grid -/

lemma onGrid_div (m : ℕ) (q i : ℤ) :
    (onGrid m q i).1 / (onGrid m q i).2 = ⌊(m * 2 ^ q / 10 ^ i : ℚ)⌋₊ := by
  have hpos : ((onGrid m q i).2 : ℚ) ≠ 0 := Nat.cast_ne_zero.mpr (onGrid_snd_pos m q i).ne'
  rw [← Nat.floor_div_eq_div (K := ℚ), onGrid_eq, mul_div_cancel_right₀ _ hpos]

/-- The two steps of a grid next to a number. -/
def IsNeighbour (m : ℕ) (q i : ℤ) (d : ℕ) : Prop :=
  d = ⌊(m * 2 ^ q / 10 ^ i : ℚ)⌋₊ ∨ d = ⌊(m * 2 ^ q / 10 ^ i : ℚ)⌋₊ + 1

lemma isNeighbour_of_nearestOn (h : nearestOn tie m q i = some d) : IsNeighbour m q i d := by
  unfold nearestOn at h
  dsimp only at h
  rw [onGrid_div] at h
  unfold IsNeighbour
  split at h
  · cases h
  · cases h
    exact .inl rfl
  · cases h
    exact .inr rfl
  · split at h <;> cases h
    · exact .inl rfl
    · exact .inr rfl
    · exact .inr rfl
    · split_ifs
      · exact .inl rfl
      · exact .inr rfl

/-- A grid with a neighbour in the interval has a decimal. -/
lemma nearestOn_ne_none (hd : IsNeighbour m q i d) (h : readsBack m q i d = true) :
    nearestOn tie m q i ≠ none := by
  unfold nearestOn
  dsimp only
  rw [onGrid_div]
  intro hnone
  split at hnone
  next hs hs' =>
    rcases hd with rfl | rfl
    · exact Bool.false_ne_true (hs.symm.trans h)
    · exact Bool.false_ne_true (hs'.symm.trans h)
  next => cases hnone
  next => cases hnone
  next => split at hnone <;> cases hnone

/-- **A grid of seventeen digits has a decimal.** -/
lemma nearestOn_ne_none_of_fine (tie : Tie) (hc : Canonical m q)
    (hi : 10 ^ 16 * (10 : ℚ) ^ i ≤ m * 2 ^ q) : nearestOn tie m q i ≠ none := by
  have hgrid : (0 : ℚ) < 10 ^ i := by positivity
  have hlo : (⌊(m * 2 ^ q / 10 ^ i : ℚ)⌋₊ : ℚ) ≤ m * 2 ^ q / 10 ^ i := Nat.floor_le (by positivity)
  have hhi : (m * 2 ^ q / 10 ^ i : ℚ) < ⌊(m * 2 ^ q / 10 ^ i : ℚ)⌋₊ + 1 := Nat.lt_floor_add_one _
  rw [le_div_iff₀ hgrid] at hlo
  rw [div_lt_iff₀ hgrid] at hhi
  have hnear (d : ℕ) (hd : IsNeighbour m q i d) (hdown : m * 2 ^ q - 10 ^ i / 2 ≤ d * (10 : ℚ) ^ i)
      (hup : d * (10 : ℚ) ^ i ≤ m * 2 ^ q + 10 ^ i / 2) : nearestOn tie m q i ≠ none := by
    refine nearestOn_ne_none hd ((readsBack_iff hc.pos).mpr ?_)
    unfold Scaled.value
    exact hc.roundsTo (by linarith) (by linarith)
  set s := ⌊(m * 2 ^ q / 10 ^ i : ℚ)⌋₊ with hs
  rcases le_total (m * 2 ^ q - s * (10 : ℚ) ^ i) (10 ^ i / 2) with hhalf | hhalf
  · exact hnear s (.inl hs) (by linarith) (by linarith)
  · exact hnear (s + 1) (.inr rfl) (by push_cast; linarith) (by push_cast; linarith)

lemma nearestOn_ne_none_of_finest (tie : Tie) (hc : Canonical m q) :
    nearestOn tie m q (scale m q - (17 : ℕ)) ≠ none := by
  have hpow : (10 : ℚ) ^ 16 * 10 ^ (scale m q - (17 : ℕ)) = 10 ^ (scale m q - 1) := by
    rw [← zpow_natCast, ← zpow_add₀ (by norm_num)]
    congr 1
    omega
  exact nearestOn_ne_none_of_fine tie hc (hpow.trans_le (scale_bounds hc).1)

/-- What ends in a zero is on the next coarser grid too. -/
lemma nearestOn_ne_none_of_mod (hm : 0 < m) (h : nearestOn tie m q i = some d) (hd : d % 10 = 0) :
    nearestOn tie m q (i + 1) ≠ none := by
  have hcoarse : ⌊(m * 2 ^ q / 10 ^ (i + 1) : ℚ)⌋₊ = ⌊(m * 2 ^ q / 10 ^ i : ℚ)⌋₊ / 10 := by
    rw [zpow_add_one₀ (by norm_num), ← div_div]
    exact Nat.floor_div_ofNat _ 10
  have hneighbour : IsNeighbour m q (i + 1) (d / 10) := by
    rcases isNeighbour_of_nearestOn h with hd' | hd'
    · exact .inl (by rw [hcoarse, hd'])
    · exact .inr (by rw [hcoarse]; omega)
  refine nearestOn_ne_none hneighbour ((readsBack_iff hm).mpr ?_)
  have hvalue : (Scaled.mk (d / 10) (i + 1)).value = (Scaled.mk d i).value := by
    have hten : (d : ℚ) = (d / 10 : ℕ) * 10 := by exact_mod_cast (show d = d / 10 * 10 by omega)
    unfold Scaled.value
    dsimp only
    rw [zpow_add_one₀ (by norm_num), hten]
    ring
  rw [hvalue]
  exact (readsBack_iff hm).mp (readsBack_of_nearestOn h)

/-! ### The coarsest grid -/

/-- Above the leading digit there is at most a one. -/
lemma mod_ne_zero_of_coarse (hc : Canonical m q) (h : nearestOn tie m q (scale m q) = some d) :
    d % 10 ≠ 0 := by
  have hnone : ⌊(m * 2 ^ q / 10 ^ scale m q : ℚ)⌋₊ = 0 :=
    Nat.floor_eq_zero.mpr ((div_lt_one (by positivity)).mpr (scale_bounds hc).2)
  rcases isNeighbour_of_nearestOn h with hd | hd
  · have hpos := ((readsBack_iff hc.pos).mp (readsBack_of_nearestOn h)).pos hc.pos
    rw [hd, hnone, Scaled.value, Nat.cast_zero, zero_mul] at hpos
    exact absurd hpos (lt_irrefl 0)
  · omega

/-- **The shortest decimal reads back, and does not end in a zero.** -/
theorem shortest_spec (tie : Tie) (hc : Canonical m q) :
    RoundsTo (shortest tie m q).value m q ∧ (shortest tie m q).digits % 10 ≠ 0 := by
  unfold shortest
  dsimp only
  set on := fun n : ℕ => (nearestOn tie m q (scale m q - n)).map (Scaled.mk · (scale m q - n))
  cases hfound : (List.range 18).findSome? on with
  | none =>
    have hnone : on 17 = none := List.findSome?_eq_none_iff.mp hfound 17 (by simp)
    exact absurd (Option.map_eq_none_iff.mp hnone) (nearestOn_ne_none_of_finest tie hc)
  | some d =>
    obtain ⟨n, hn, hbefore⟩ := exists_of_findSome?_range hfound
    obtain ⟨digits, hdigits, rfl⟩ := Option.map_eq_some_iff.mp hn
    rw [Option.getD_some]
    refine ⟨(readsBack_iff hc.pos).mp (readsBack_of_nearestOn hdigits), fun hzero => ?_⟩
    cases n with
    | zero =>
      rw [Nat.cast_zero, sub_zero] at hdigits
      exact mod_ne_zero_of_coarse hc hdigits hzero
    | succ n =>
      -- the grid before this one had it already
      have hcoarser := nearestOn_ne_none_of_mod hc.pos hdigits hzero
      have hstep : scale m q - (n + 1 : ℕ) + 1 = scale m q - n := by omega
      rw [hstep] at hcoarser
      exact hcoarser (Option.map_eq_none_iff.mp (hbefore n (Nat.lt_succ_self n)))

end Tariff.Decimal
