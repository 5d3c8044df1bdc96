import Tariff.Proofs.Decimal.Expansion
import Tariff.Proofs.Decimal.HalfEven
import Tariff.Proofs.Decimal.Interval
import Tariff.Proofs.Decimal.Rounding

/-!
Rounding and reading are correct: a mantissa with its accuracy is rounded to the finite number in
whose interval the exact number lies, so a quotient of whole numbers is, and a decimal with digits
behind the point is read as the number that it rounds to.
-/

namespace Tariff.Decimal

open Float.Model (UnpackedFloat Format totalExponent)
open Float.Model.UnpackedFloat

variable {M m : ℕ} {E q : ℤ} {v : ℚ} {a : Accuracy}

/-! ### Rounding -/

/-- The two shifts of rounding, to the exponent that the number asks for and to the one that the
rounded mantissa does. -/
lemma roundWithAccuracy_eq_finite {r k : ℕ} (htarget :
      Format.binary64.targetExponent (totalExponent M E) = q) (hE : E ≤ q)
    (hround : (ExtendedMantissa.ofMantissaAndAccuracy M a >>> (q - E).toNat).roundedMantissa = r)
    (hcarry : (Format.binary64.targetExponent (totalExponent r q) - q).toNat = k)
    (hpos : 0 < r / 2 ^ k) : roundWithAccuracy Format.binary64 .positive M E a =
      .finite .positive (r / 2 ^ k) (q + k) hpos := by
  have hexponent : E + ((q - E).toNat : ℤ) = q := by omega
  have hmantissa : (ExtendedMantissa.ofMantissaAndAccuracy r .exact >>> k).mantissa =
      r / 2 ^ k := by
    rw [mantissa_shift, mantissa_ofMantissaAndAccuracy]
  unfold roundWithAccuracy shiftToTargetExponent shiftToExponent
  dsimp only
  rw [htarget, hround, hexponent, hcarry]
  rw [dif_neg (by rw [hmantissa]; omega)]
  exact finite_congr rfl hmantissa rfl

/-- A number in units of a higher place. -/
lemma mul_zpow_eq {p : ℤ} (hp : E ≤ p) : v * 2 ^ E = v / 2 ^ (p - E).toNat * 2 ^ p := by
  obtain ⟨j, hj⟩ := Int.eq_ofNat_of_zero_le (Int.sub_nonneg.mpr hp)
  obtain rfl : p = j + E := by omega
  rw [Int.add_sub_cancel, Int.toNat_natCast, zpow_add₀ two_ne_zero, zpow_natCast]
  field_simp

/-- The exponent that a number asks for is the one with which it has 53 places, or the least. -/
lemma targetExponent_of_places (hlo : M ≤ v) (hhi : v < M + 1)
    (hE : E ≤ Format.binary64.targetExponent (totalExponent M E)) (hq : -1074 ≤ q)
    (hlt : v * 2 ^ E < 2 ^ 53 * 2 ^ q) (hge : q = -1074 ∨ 2 ^ 52 * 2 ^ q ≤ v * 2 ^ E) :
    E ≤ q ∧ Format.binary64.targetExponent (totalExponent M E) = q := by
  have hplaces : M.log2 = 0 ∧ M = 0 ∨ M.log2 + E < 53 + q := by
    rcases Nat.eq_zero_or_pos M with rfl | hM
    · exact .inl ⟨Nat.log2_zero, rfl⟩
    · have hpow : (2 : ℚ) ^ (M.log2 + E) < 2 ^ (53 + q) :=
        calc (2 : ℚ) ^ (M.log2 + E) ≤ M * 2 ^ E := (two_zpow_bounds hM E).1
          _ ≤ v * 2 ^ E := mul_le_mul_of_nonneg_right hlo (by positivity)
          _ < 2 ^ 53 * 2 ^ q := hlt
          _ = 2 ^ (53 + q) := by rw [zpow_add₀ two_ne_zero]; rfl
      exact .inr ((zpow_lt_zpow_iff_right₀ one_lt_two).mp hpow)
  rw [targetExponent_eq, totalExponent] at hE ⊢
  have hEq : E ≤ q := by omega
  refine ⟨hEq, ?_⟩
  rcases hge with rfl | hge
  · omega
  · rw [mul_zpow_eq hEq] at hge
    have hv := le_of_mul_le_mul_right hge (by positivity)
    rw [le_div_iff₀ (by positivity)] at hv
    set j := (q - E).toNat
    have hM : 2 ^ 52 * 2 ^ j < M + 1 := by exact_mod_cast hv.trans_lt hhi
    have hlog : 52 + j ≤ M.log2 := by
      rw [← Nat.pow_add] at hM
      exact (Nat.le_log2 (by have := Nat.two_pow_pos (52 + j); omega)).mpr (by omega)
    omega

/-- In units in the last place, the interval holds what the mantissa is nearest to. -/
lemma isNearest_of_roundsTo (h : RoundsTo (v * 2 ^ q) m q) : IsNearest m v := by
  have hunit : (0 : ℚ) < 2 ^ q := by positivity
  have hlower := le_of_mul_le_mul_right h.lower hunit
  have hupper := le_of_mul_le_mul_right h.upper hunit
  have hbelow := (below_bounds m q).2
  refine ⟨by linarith, hupper, fun htie => ?_⟩
  by_contra hodd
  obtain ⟨hlower, hupper⟩ := h.inside (by omega)
  have hlower := lt_of_mul_lt_mul_right hlower hunit.le
  have hupper := lt_of_mul_lt_mul_right hupper hunit.le
  rcases htie with htie | htie <;> linarith

/-- A number that has all places, or those that the least exponent leaves, is rounded once. -/
lemma roundWithAccuracy_of_full (hc : Canonical m q)
    (hv : Shows (ExtendedMantissa.ofMantissaAndAccuracy M a) v) (hEq : E ≤ q)
    (htarget : Format.binary64.targetExponent (totalExponent M E) = q)
    (hr : RoundsTo (v * 2 ^ E) m q) :
    roundWithAccuracy Format.binary64 .positive M E a = .finite .positive m q hc.pos := by
  rw [mul_zpow_eq hEq] at hr
  have hnearest := (hv.shiftRight (q - E).toNat).isNearest
  have hcarry : (Format.binary64.targetExponent (totalExponent m q) - q).toNat = 0 := by
    have hlog := (Nat.log2_lt hc.pos.ne').mpr hc.lt
    have hleast := hc.least
    rw [targetExponent_eq, totalExponent]
    omega
  rw [roundWithAccuracy_eq_finite htarget hEq (hnearest.unique (isNearest_of_roundsTo hr)) hcarry
    (by rw [pow_zero, Nat.div_one]; exact hc.pos)]
  exact finite_congr rfl (by rw [pow_zero, Nat.div_one]) (Int.add_zero q)

/-- Just below a power of two, where the places are half as large, a number is rounded up to it
with a carry. -/
lemma roundWithAccuracy_of_below {hpos : 0 < 2 ^ 52}
    (hv : Shows (ExtendedMantissa.ofMantissaAndAccuracy M a) v) (hq : -1074 < q) (hEq : E ≤ q - 1)
    (htarget : Format.binary64.targetExponent (totalExponent M E) = q - 1)
    (hlower : (2 ^ 53 - 1 / 2) * 2 ^ (q - 1) ≤ v * 2 ^ E)
    (hupper : v * 2 ^ E < 2 ^ 53 * 2 ^ (q - 1)) :
    roundWithAccuracy Format.binary64 .positive M E a = .finite .positive (2 ^ 52) q hpos := by
  have hunit : (0 : ℚ) < 2 ^ (q - 1) := by positivity
  rw [mul_zpow_eq hEq] at hlower hupper
  have hlower := le_of_mul_le_mul_right hlower hunit
  have hupper := lt_of_mul_lt_mul_right hupper hunit.le
  have hnearest : IsNearest (2 ^ 53) (v / 2 ^ (q - 1 - E).toNat) :=
    ⟨by push_cast; linarith, by push_cast; linarith, fun _ => by omega⟩
  have hcarry :
      (Format.binary64.targetExponent (totalExponent (2 ^ 53) (q - 1)) - (q - 1)).toNat = 1 := by
    rw [targetExponent_eq, totalExponent, Nat.log2_two_pow]
    omega
  rw [roundWithAccuracy_eq_finite htarget hEq
    ((hv.shiftRight (q - 1 - E).toNat).isNearest.unique hnearest) hcarry (by omega)]
  exact finite_congr rfl rfl (Int.sub_add_cancel q 1)

/-- **Rounding is correct**: what is rounded to is the number in whose interval the exact one
lies. -/
lemma roundWithAccuracy_eq (hc : Canonical m q)
    (hv : Shows (ExtendedMantissa.ofMantissaAndAccuracy M a) v)
    (hE : E ≤ Format.binary64.targetExponent (totalExponent M E)) (hr : RoundsTo (v * 2 ^ E) m q) :
    roundWithAccuracy Format.binary64 .positive M E a = .finite .positive m q hc.pos := by
  obtain ⟨hlo, hhi⟩ := hv.bounds
  rw [mantissa_ofMantissaAndAccuracy] at hlo hhi
  have hunit : (0 : ℚ) < 2 ^ q := by positivity
  have hupper : v * 2 ^ E < 2 ^ 53 * 2 ^ q := by
    have hlt : (m + 1 : ℚ) ≤ 2 ^ 53 := by exact_mod_cast hc.lt
    exact hr.upper.trans_lt (mul_lt_mul_of_pos_right (by linarith) hunit)
  by_cases hfull : q = -1074 ∨ 2 ^ 52 * 2 ^ q ≤ v * 2 ^ E
  · obtain ⟨hEq, htarget⟩ := targetExponent_of_places hlo hhi hE hc.least hupper hfull
    exact roundWithAccuracy_of_full hc hv hEq htarget hr
  · obtain ⟨hq, hbelow⟩ := not_or.mp hfull
    have hq : -1074 < q := lt_of_le_of_ne hc.least (Ne.symm hq)
    have hbelow : v * 2 ^ E < 2 ^ 52 * 2 ^ q := not_le.mp hbelow
    have hmantissa : m = 2 ^ 52 := by
      have hm := lt_of_mul_lt_mul_right (hr.lower.trans_lt hbelow) hunit.le
      have hm : (m : ℚ) < 2 ^ 52 + 1 := by linarith [(below_bounds m q).2]
      have hm : m < 2 ^ 52 + 1 := by exact_mod_cast hm
      have := hc.full hq
      omega
    subst hmantissa
    have hhalf : (2 : ℚ) ^ q = 2 * 2 ^ (q - 1) := by
      rw [zpow_sub_one₀ two_ne_zero]
      ring
    have hlower := (mul_le_mul_of_nonneg_right (hc.le_sub_below hq) hunit.le).trans hr.lower
    rw [hhalf] at hbelow hlower
    have hunit : (0 : ℚ) < 2 ^ (q - 1) := by positivity
    obtain ⟨hEq, htarget⟩ := targetExponent_of_places (q := q - 1) hlo hhi hE (by omega)
      (by linarith) (.inr (by linarith))
    exact roundWithAccuracy_of_below hv hq hEq htarget (by linarith) (by linarith)

/-! ### Quotients -/

lemma le_targetExponent_of_quotient {n d : ℕ} {e f t : ℤ} (hn : 0 < n) (hd : 0 < d)
    (ht : t ≤ Format.binary64.targetExponent (totalExponent n e - totalExponent d f))
    (hte : t ≤ e - f) : t ≤ Format.binary64.targetExponent
      (totalExponent (n <<< (e - f - t).toNat / d) t) := by
  simp only [targetExponent_eq, totalExponent] at ht ⊢
  set k := (e - f - t).toNat with hk
  by_cases hleast : t ≤ -1074
  · omega
  · have hplaces : 53 + d.log2 ≤ n.log2 + k := by omega
    have hquotient : 2 ^ 52 ≤ n <<< k / d := by
      rw [Nat.le_div_iff_mul_le hd, Nat.shiftLeft_eq]
      calc 2 ^ 52 * d ≤ 2 ^ 52 * 2 ^ (d.log2 + 1) := Nat.mul_le_mul_left _ Nat.lt_log2_self.le
        _ = 2 ^ (53 + d.log2) := by rw [← Nat.pow_add]; congr 1; omega
        _ ≤ 2 ^ (n.log2 + k) := Nat.pow_le_pow_right (by omega) hplaces
        _ = 2 ^ n.log2 * 2 ^ k := Nat.pow_add _ _ _
        _ ≤ n * 2 ^ k := Nat.mul_le_mul_right _ (Nat.log2_self_le hn.ne')
    have hlog : 52 ≤ (n <<< k / d).log2 := (Nat.le_log2 (by omega)).mpr hquotient
    omega

/-- **Division is correct.** -/
lemma div_eq_of_roundsTo {n d : ℕ} {e f : ℤ} (hn : 0 < n) (hd : 0 < d) (hc : Canonical m q)
    (hr : RoundsTo (n * 2 ^ e / (d * 2 ^ f)) m q) :
    div Format.binary64 (.finite .positive n e hn) (.finite .positive d f hd) =
      .finite .positive m q hc.pos := by
  unfold div divCore
  dsimp only
  set t := min (e - f)
    (Format.binary64.targetExponent (totalExponent n e - totalExponent d f)) with ht
  have hshift : (n * 2 ^ e / (d * 2 ^ f) : ℚ) = (n <<< (e - f - t).toNat : ℕ) / d * 2 ^ t := by
    have hexponent : ((e - f - t).toNat : ℤ) + t = e - f := by omega
    rw [div_mul_eq_mul_div, shift_value, hexponent, zpow_sub₀ two_ne_zero]
    field_simp
  rw [hshift] at hr
  exact roundWithAccuracy_eq hc (shows_quotient _ hd)
    (le_targetExponent_of_quotient hn hd (Int.min_le_right _ _) (Int.min_le_left _ _)) hr

lemma div_eq_ofModel {x y : Float} {n d : ℕ} {e f : ℤ} {hn : 0 < n} {hd : 0 < d}
    (hx : x.toModel.unpack = .finite .positive n e hn)
    (hy : y.toModel.unpack = .finite .positive d f hd) (hc : Canonical m q)
    (hr : RoundsTo (n * 2 ^ e / (d * 2 ^ f)) m q) :
    x / y = Float.ofModel (Float.Model.pack (.finite .positive m q hc.pos)) := by
  have hdiv : x / y = Float.ofModel (Float.Model.pack
    (div Format.binary64 x.toModel.unpack y.toModel.unpack)) := rfl
  rw [hdiv, hx, hy, div_eq_of_roundsTo hn hd hc hr]

/-! ### Decimals -/

lemma exists_unpack_toFloat {n : ℕ} (hn : 0 < n) (hlt : n < 2 ^ 53) : ∃ d f h,
    n.toUInt64.toFloat.toModel.unpack = .finite .positive d f h ∧ (d * 2 ^ f : ℚ) = n := by
  have hlog : n.log2 ≤ 52 := log2_le_of_lt hlt
  have hfull := log2_full hn hlt
  have hplaces := places_of_log2 hfull
  have hc : Canonical (n <<< (52 - n.log2)) (n.log2 - 52) :=
    ⟨by omega, hplaces.2, by omega, by omega, fun _ => hplaces.1⟩
  refine ⟨_, _, hc.pos, ?_, value_full hlt⟩
  rw [unpack_toFloat hn hlt, roundWithAccuracy_eq hc (shows_exact _) ?_ hc.roundsTo_self,
    hc.unpack_pack]
  rw [targetExponent_eq, totalExponent, hfull]
  omega

/-- A decimal too small to be read is in no interval. -/
lemma le_of_roundsTo {n k : ℕ} (hc : Canonical m q) (hr : RoundsTo (n / 10 ^ k) m q) :
    k ≤ 2048 + n.log2 := by
  by_contra hlt
  have hn : (n : ℚ) ≤ 2 ^ (n.log2 + 1) := by exact_mod_cast Nat.lt_log2_self.le
  have hsmall : (n / 10 ^ k : ℚ) ≤ 2 ^ (-2048 : ℤ) :=
    calc (n / 10 ^ k : ℚ) ≤ 2 ^ (n.log2 + 1) / 2 ^ k :=
          div_le_div₀ (by positivity) hn (by positivity)
            (pow_le_pow_left₀ (by norm_num) (by norm_num) k)
      _ = 2 ^ ((n.log2 + 1 : ℕ) - k : ℤ) := by
          rw [zpow_sub₀ two_ne_zero, zpow_natCast, zpow_natCast]
      _ ≤ 2 ^ (-2048 : ℤ) := zpow_le_zpow_right₀ one_le_two (by omega)
  have hone : (1 : ℚ) ≤ m := by exact_mod_cast hc.pos
  have hlarge : (2 : ℚ) ^ (-1075 : ℤ) ≤ n / 10 ^ k :=
    calc (2 : ℚ) ^ (-1075 : ℤ) = 1 / 2 * 2 ^ (-1074 : ℤ) := by
          rw [one_div, ← zpow_neg_one, ← zpow_add₀ two_ne_zero]
          rfl
      _ ≤ (m - below m q) * 2 ^ q := mul_le_mul (by linarith [(below_bounds m q).2])
        (zpow_le_zpow_right₀ one_le_two hc.least) (by positivity)
        (by linarith [(below_bounds m q).2])
      _ ≤ n / 10 ^ k := hr.lower
  have := (zpow_le_zpow_iff_right₀ (a := (2 : ℚ)) one_lt_two).mp (hlarge.trans hsmall)
  omega

/-- **A decimal is read as the number in whose interval it lies.** -/
lemma ofScaled_eq {n k : ℕ} (hn : 0 < n) (hk : 0 < k) (hc : Canonical m q)
    (hr : RoundsTo (n / 10 ^ k) m q) :
    ofScaled n (-k) = Float.ofModel (Float.Model.pack (.finite .positive m q hc.pos)) := by
  have hscientific : ofScaled n (-k) = Float.ofScientific n true k := by
    unfold ofScaled
    rw [decide_eq_true (show -(k : ℤ) < 0 by omega), Int.natAbs_neg, Int.natAbs_natCast]
  rw [hscientific]
  unfold Float.ofScientific
  by_cases hsmall : n < 2 ^ 53 ∧ k ≤ 22
  · obtain ⟨d, f, hd, hu, hvalue⟩ := exists_unpack_toFloat hn hsmall.1
    obtain ⟨d', f', ⟨⟨hd', hu'⟩, -⟩, -, -, hvalue'⟩ :=
      exists_normal_power (Nat.lt_succ_of_le hsmall.2)
    rw [← hvalue, ← hvalue'] at hr
    rw [dif_pos hsmall, if_pos rfl]
    exact div_eq_ofModel hu hu' hc hr
  · have hguard := le_of_roundsTo hc hr
    have hbits : (2 : ℤ) ^ Format.binary64.exponentBits = 2048 := rfl
    have hneg : Int.negOfNat k = -k := Int.negOfNat_eq
    rw [dif_neg hsmall, if_pos rfl, hneg]
    dsimp only
    unfold Float.Model.ofScientific UnpackedFloat.ofScientific
    rw [dif_neg hn.ne', hbits, if_neg (by omega), if_neg (by omega), if_neg (by omega),
      div_eq_of_roundsTo hn _ hc]
    simpa using hr

/-- **An expansion below one is read as the number in whose interval it lies.** -/
lemma read?_of_expansion {w f : List Char} (hc : Canonical m q) (hexpansion : Expansion v w f)
    (hr : RoundsTo v m q) (hlt : v < 1) : read? (w ++ point f) =
      some (Float.ofModel (Float.Model.pack (.finite .positive m q hc.pos))) := by
  have hpos := hexpansion.natOfDigits_pos (hr.pos hc.pos)
  rw [hexpansion.value] at hr hlt
  have hlen : 0 < f.length := Nat.pos_of_ne_zero fun h0 => by
    rw [h0, pow_zero, div_one] at hlt
    exact hpos.ne' (Nat.lt_one_iff.mp (by exact_mod_cast hlt))
  rw [read?_eq (List.append_ne_nil_of_left_ne_nil hexpansion.whole_ne_nil f) hexpansion.digits.1
    hexpansion.digits.2, ofScaled_eq hpos hlen hc hr]

end Tariff.Decimal
