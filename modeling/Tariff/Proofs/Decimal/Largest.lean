import Tariff.Proofs.Decimal.Rounding

/-!
Decimals towards the upper end. A natural number of 64 bits and a power of ten up to 308 are finite
numbers, and so is their product if, with four roundings to spare, it is less than the second
largest finite number.
-/

namespace Tariff.Decimal

open Float.Model (Format)
open Float.Model.UnpackedFloat

def largest : ℚ := (2 ^ 53 - 1) * 2 ^ (971 : ℤ)

lemma largest_lt : largest < 2 ^ (1024 : ℤ) := by
  have hsplit : (2 : ℚ) ^ (1024 : ℤ) = 2 ^ 53 * 2 ^ (971 : ℤ) := by
    rw [← zpow_natCast, ← zpow_add₀ two_ne_zero]
    rfl
  rw [hsplit]
  exact mul_lt_mul_of_pos_right (by norm_num) (by positivity)

lemma tenPower_lt_largest {k : ℕ} (hk : k ≤ 308) : (10 ^ k : ℚ) < largest := by
  have hnat : 10 ^ 308 < 9007199254740991 * 2 ^ 971 := by decide +kernel
  have hcast : ((10 ^ 308 : ℕ) : ℚ) < (9007199254740991 * 2 ^ 971 : ℕ) := Nat.cast_lt.mpr hnat
  rw [Nat.cast_mul, Nat.cast_pow, Nat.cast_pow] at hcast
  have hfirst : ((9007199254740991 : ℕ) : ℚ) = 2 ^ 53 - 1 := by norm_num
  calc (10 ^ k : ℚ) ≤ 10 ^ 308 := pow_le_pow_right₀ (by norm_num) hk
    _ < (9007199254740991 : ℕ) * 2 ^ 971 := hcast
    _ = largest := by rw [hfirst]; rfl

variable {m n k : ℕ} {e : ℤ}

/-- What is less than the largest finite number fits. -/
lemma fits_of_lt (hm : 52 ≤ m.log2) (h : (m * 2 ^ e : ℚ) < largest) : Fits m e := by
  have hm0 : m ≠ 0 := by
    rintro rfl
    rw [Nat.log2_zero] at hm
    omega
  have hlog : (2 : ℚ) ^ (m.log2 + e) < 2 ^ (1024 : ℤ) := by
    have hlog2 : ((2 ^ m.log2 : ℕ) : ℚ) ≤ m := Nat.cast_le.mpr (Nat.log2_self_le hm0)
    calc (2 : ℚ) ^ (m.log2 + e) = (2 ^ m.log2 : ℕ) * 2 ^ e := by
          rw [zpow_add₀ two_ne_zero, zpow_natCast, Nat.cast_pow, Nat.cast_ofNat]
      _ ≤ m * 2 ^ e := mul_le_mul_of_nonneg_right hlog2 (by positivity)
      _ < largest := h
      _ < 2 ^ (1024 : ℤ) := largest_lt
  have hlt : m.log2 + e < 1024 := (zpow_lt_zpow_iff_right₀ one_lt_two).mp hlog
  rcases lt_or_eq_of_le (show e + m.log2 ≤ 1023 by omega) with hsmall | htop
  · exact .inl (by omega)
  · refine .inr ⟨htop, ?_⟩
    -- both are counted in units of the last place
    set q := m / 2 ^ (m.log2 - 52)
    have hcut : ((q * 2 ^ (m.log2 - 52) : ℕ) : ℚ) ≤ m := Nat.cast_le.mpr (Nat.div_mul_le_self m _)
    have hq : (q : ℚ) * 2 ^ (971 : ℤ) < (2 ^ 53 - 1) * 2 ^ (971 : ℤ) := by
      calc (q : ℚ) * 2 ^ (971 : ℤ) = ((q * 2 ^ (m.log2 - 52) : ℕ) : ℚ) * 2 ^ e := by
            have hexponent : (971 : ℤ) = (m.log2 - 52 : ℕ) + e := by omega
            rw [hexponent, zpow_add₀ two_ne_zero, zpow_natCast, Nat.cast_mul, Nat.cast_pow,
              Nat.cast_ofNat, mul_assoc]
        _ ≤ m * 2 ^ e := mul_le_mul_of_nonneg_right hcut (by positivity)
        _ < largest := h
    have hq := lt_of_mul_lt_mul_right hq (by positivity)
    have hq : ((q + 1 : ℕ) : ℚ) < (2 ^ 53 : ℕ) := by
      rw [Nat.cast_add_one, Nat.cast_pow, Nat.cast_ofNat]
      exact lt_sub_iff_add_lt.mp hq
    exact Nat.cast_lt.mp hq

/-- Where reading takes no shortcut, the product is rounded once. -/
lemma exists_normal_scaledUp (hn : 0 < n) (hslow : ¬(n < 2 ^ 53 ∧ k ≤ 22)) (hk : k ≤ 308)
    (hlt : (n * 10 ^ k : ℚ) < largest) : ∃ m e, Normal (ofScaled n k) m e ∧ -53 ≤ e ∧
      Within 1 (m * 2 ^ e) (n * 10 ^ k) := by
  have hpos : 0 < n * 10 ^ k := Nat.mul_pos hn (Nat.pow_pos (by decide))
  have hx : (ofScaled n k).toModel.unpack = unpack Format.binary64 (pack Format.binary64
      (roundWithAccuracy Format.binary64 .positive ((n * 10 ^ k) <<< 53) (-53) .exact)) := by
    have hmodel : (ofScaled n k).toModel.unpack = unpack Format.binary64 (pack Format.binary64
        (Float.Model.UnpackedFloat.ofScientific Format.binary64 n k)) := by
      have habs : (k : ℤ).natAbs = k := rfl
      unfold ofScaled Float.ofScientific
      rw [habs, dif_neg hslow, if_neg (by simp)]
      rfl
    have hproduct : (n <<< 53) * 10 ^ k = (n * 10 ^ k) <<< 53 := by
      rw [Nat.shiftLeft_eq, Nat.shiftLeft_eq, Nat.mul_right_comm]
    rw [hmodel, ← hproduct]
    unfold Float.Model.UnpackedFloat.ofScientific
    have h2 : ¬((k : ℤ) > 2 ^ 11) := by omega
    have h3 : ¬((k : ℤ) < -((2 ^ 11 : ℤ) + n.log2)) := by omega
    rw [dif_neg (Nat.pos_iff_ne_zero.mp hn), if_neg h2, if_neg h3, if_pos (Int.natCast_nonneg k)]
    rfl
  have hlog : ((n * 10 ^ k) <<< 53).log2 = (n * 10 ^ k).log2 + 53 :=
    log2_shiftLeft (Nat.pos_iff_ne_zero.mp hpos) 53
  have hvalue : (((n * 10 ^ k) <<< 53 : ℕ) * 2 ^ (-53 : ℤ) : ℚ) = n * 10 ^ k := by
    have hexponent : ((53 : ℕ) : ℤ) + -53 = 0 := rfl
    rw [shift_value, hexponent, zpow_zero, mul_one, Nat.cast_mul, Nat.cast_pow, Nat.cast_ofNat]
  obtain ⟨m, e, hnormal, hlo, -, hwithin⟩ := exists_normal_of_round hx (by omega) (by omega)
    (fits_of_lt (by omega) (by rw [hvalue]; exact hlt))
  exact ⟨m, e, hnormal, by omega, hwithin _ hvalue.le (hvalue.symm.le.trans (le_add_one_mul _ _))⟩

lemma exists_normal_natural (hn : 0 < n) (hlt : n < 2 ^ 64) :
    ∃ m e, Normal (ofScaled n 0) m e ∧ -127 ≤ e ∧ Within 2 (m * 2 ^ e) n := by
  by_cases hsmall : n < 2 ^ 53
  · obtain ⟨m, e, hnormal, hlo, -, hwithin⟩ := exists_normal_ofScaled hn hsmall (k := 0) (by omega)
    rw [pow_zero, div_one] at hwithin
    exact ⟨m, e, hnormal, hlo, hwithin⟩
  · have hlargest : ((n : ℚ) * 10 ^ 0) < largest := by
      have hn : (n : ℚ) < 10 ^ 20 := by
        exact_mod_cast hlt.trans (by norm_num : 2 ^ 64 < 10 ^ 20)
      rw [pow_zero, mul_one]
      exact hn.trans (tenPower_lt_largest (by omega))
    obtain ⟨m, e, hnormal, hlo, hwithin⟩ :=
      exists_normal_scaledUp hn (fun h => hsmall h.1) (by omega) hlargest
    rw [pow_zero, mul_one] at hwithin
    exact ⟨m, e, hnormal, by omega, hwithin.weaken (by omega) (by positivity)⟩

lemma exists_normal_tenPower (hk : k ≤ 308) :
    ∃ m e, Normal (ofScaled 1 k) m e ∧ -127 ≤ e ∧ Within 2 (m * 2 ^ e) (10 ^ k) := by
  by_cases hsmall : k ≤ 22
  · obtain ⟨m₁, e₁, hnormal₁, hlo₁, hhi₁, hwithin₁⟩ := exists_normal_ofNat one_pos (by decide)
    have hindex : k < 23 := Nat.lt_succ_of_le hsmall
    obtain ⟨m₂, e₂, hnormal₂, hlo₂, hhi₂, hvalue⟩ := exists_normal_power hindex
    have hlog := hnormal₁.log2_mul hnormal₂
    obtain ⟨m', e', hnormal, hlo, -, hwithin⟩ :=
      exists_normal_mul hnormal₁ hnormal₂ (by omega) (.inl (by omega))
    have hshort : 1 < 2 ^ 53 ∧ (k : ℤ).natAbs ≤ 22 := ⟨by decide, hsmall⟩
    have hfactor : Within 1 (m₁ * 2 ^ e₁ * 10 ^ k) (10 ^ k) := by
      have h := hwithin₁.mul (y := (10 : ℚ) ^ k) (by positivity)
      rwa [Nat.cast_one, one_mul] at h
    rw [hvalue] at hwithin
    unfold ofScaled Float.ofScientific
    rw [dif_pos hshort, if_neg (by simp)]
    exact ⟨m', e', hnormal, by omega, hwithin.trans hfactor⟩
  · have hlargest : (((1 : ℕ) : ℚ) * 10 ^ k) < largest := by
      rw [Nat.cast_one, one_mul]
      exact tenPower_lt_largest hk
    obtain ⟨m, e, hnormal, hlo, hwithin⟩ :=
      exists_normal_scaledUp one_pos (fun h => hsmall h.2) hk hlargest
    rw [Nat.cast_one, one_mul] at hwithin
    exact ⟨m, e, hnormal, by omega, hwithin.weaken (by omega) (by positivity)⟩

/-- **A product that stays finite.** -/
lemma isFinite_mul_tenPower (hn : 0 < n) (hlt : n < 2 ^ 64) (hk : k ≤ 308)
    (h : (1 + ulp) ^ 4 * (n * 10 ^ k) < largest) :
    (ofScaled n 0 * ofScaled 1 k).isFinite = true := by
  obtain ⟨m₁, e₁, hnormal₁, hlo₁, hwithin₁⟩ := exists_normal_natural hn hlt
  obtain ⟨m₂, e₂, hnormal₂, hlo₂, hwithin₂⟩ := exists_normal_tenPower hk
  have hpos : (0 : ℚ) ≤ (1 + ulp) ^ 2 := pow_nonneg (by linarith [ulp_pos]) 2
  have hvalue : ((m₁ * m₂ : ℕ) * 2 ^ (e₁ + e₂) : ℚ) < largest := by
    calc ((m₁ * m₂ : ℕ) * 2 ^ (e₁ + e₂) : ℚ) = m₁ * 2 ^ e₁ * (m₂ * 2 ^ e₂) := by
          rw [zpow_add₀ two_ne_zero, Nat.cast_mul]
          ring
      _ ≤ (1 + ulp) ^ 2 * n * ((1 + ulp) ^ 2 * 10 ^ k) :=
        mul_le_mul hwithin₁.2 hwithin₂.2 (by positivity) (mul_nonneg hpos (Nat.cast_nonneg n))
      _ = (1 + ulp) ^ 4 * (n * 10 ^ k) := by ring
      _ < largest := h
  have hlog := hnormal₁.log2_mul hnormal₂
  obtain ⟨m, e, hnormal, -⟩ :=
    exists_normal_mul hnormal₁ hnormal₂ (by omega) (fits_of_lt (by omega) hvalue)
  exact isFinite_of_normal hnormal

end Tariff.Decimal
