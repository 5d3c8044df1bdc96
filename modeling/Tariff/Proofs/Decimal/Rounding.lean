import Mathlib.Algebra.Order.Field.Basic
import Mathlib.Algebra.Order.Field.Power
import Mathlib.Data.Rat.Cast.Order
import Mathlib.Tactic.FieldSimp
import Mathlib.Tactic.FinCases
import Mathlib.Tactic.Linarith
import Mathlib.Tactic.Positivity
import Mathlib.Tactic.Ring
import Tariff.Proofs.Decimal.Unit

/-!
How far rounding is off. A mantissa of at least 53 places is rounded to one of exactly 53, by at
most one unit in the last of them; so whole numbers, products and quotients are each off by at most
that much, and the errors of a chain of operations multiply.
-/

namespace Tariff.Decimal

open Float.Model (UnpackedFloat Format totalExponent)
open Float.Model.UnpackedFloat

/-! ### Relative error -/

/-- One unit in the last place of the least mantissa, as a part of it. -/
def ulp : ℚ := 1 / 2 ^ 52

lemma ulp_pos : 0 < ulp := by unfold ulp; positivity

lemma ulp_lt_one : ulp < 1 := by unfold ulp; norm_num

/-- A number up to so many roundings. -/
def Within (j : ℕ) (v x : ℚ) : Prop := (1 - ulp) ^ j * x ≤ v ∧ v ≤ (1 + ulp) ^ j * x

namespace Within

variable {i j : ℕ} {u v x y : ℚ}

lemma one (hlo : x - v ≤ ulp * x) (hhi : v - x ≤ ulp * x) : Within 1 v x := by
  constructor <;> linarith

lemma trans (huv : Within i u v) (hvx : Within j v x) : Within (i + j) u x := by
  have hlo : 0 ≤ (1 - ulp) ^ i := pow_nonneg (by linarith [ulp_lt_one]) i
  have hhi : 0 ≤ (1 + ulp) ^ i := pow_nonneg (by linarith [ulp_pos]) i
  constructor
  · calc (1 - ulp) ^ (i + j) * x = (1 - ulp) ^ i * ((1 - ulp) ^ j * x) := by ring
      _ ≤ (1 - ulp) ^ i * v := mul_le_mul_of_nonneg_left hvx.1 hlo
      _ ≤ u := huv.1
  · calc u ≤ (1 + ulp) ^ i * v := huv.2
      _ ≤ (1 + ulp) ^ i * ((1 + ulp) ^ j * x) := mul_le_mul_of_nonneg_left hvx.2 hhi
      _ = (1 + ulp) ^ (i + j) * x := by ring

lemma weaken (h : Within i v x) (hij : i ≤ j) (hx : 0 ≤ x) : Within j v x := by
  have hlo : (1 - ulp) ^ j ≤ (1 - ulp) ^ i :=
    pow_le_pow_of_le_one (sub_nonneg.mpr ulp_lt_one.le) (sub_le_self 1 ulp_pos.le) hij
  have hhi : (1 + ulp) ^ i ≤ (1 + ulp) ^ j :=
    pow_le_pow_right₀ (le_add_of_nonneg_right ulp_pos.le) hij
  exact ⟨(mul_le_mul_of_nonneg_right hlo hx).trans h.1,
    h.2.trans (mul_le_mul_of_nonneg_right hhi hx)⟩

lemma mul (h : Within j v x) (hy : 0 ≤ y) : Within j (v * y) (x * y) := by
  constructor
  · rw [← mul_assoc]
    exact mul_le_mul_of_nonneg_right h.1 hy
  · rw [← mul_assoc]
    exact mul_le_mul_of_nonneg_right h.2 hy

lemma div (h : Within j v x) (hy : 0 < y) : Within j (v / y) (x / y) := by
  constructor
  · rw [← mul_div_assoc]
    exact div_le_div_of_nonneg_right h.1 hy.le
  · rw [← mul_div_assoc]
    exact div_le_div_of_nonneg_right h.2 hy.le

end Within

/-! ### Normal numbers -/

/-- A positive number with a mantissa of all 53 places. -/
structure Normal (x : Float) (m : ℕ) (e : ℤ) : Prop where
  unpack : ∃ h, x.toModel.unpack = .finite .positive m e h
  log2 : m.log2 = 52

variable {x y : Float} {m n : ℕ} {e f : ℤ}

/-- Without its last places a mantissa has 53 of them. -/
lemma places_of_cut {k : ℕ} (hm : m.log2 = 52 + k) : 2 ^ 52 ≤ m / 2 ^ k ∧ m / 2 ^ k < 2 ^ 53 := by
  have h0 : m ≠ 0 := by
    rintro rfl
    rw [Nat.log2_zero] at hm
    omega
  obtain ⟨hge, hlt⟩ := (Nat.log2_eq_iff h0).mp hm
  rw [Nat.pow_add] at hge
  rw [Nat.add_right_comm, Nat.pow_add] at hlt
  exact ⟨(Nat.le_div_iff_mul_le (Nat.two_pow_pos k)).mpr hge,
    (Nat.div_lt_iff_lt_mul (Nat.two_pow_pos k)).mpr hlt⟩

lemma places_of_log2 (h : m.log2 = 52) : 2 ^ 52 ≤ m ∧ m < 2 ^ 53 := by
  have := places_of_cut (k := 0) h
  rwa [Nat.pow_zero, Nat.div_one] at this

lemma Normal.places (h : Normal x m e) : 2 ^ 52 ≤ m ∧ m < 2 ^ 53 := places_of_log2 h.log2

lemma isFinite_of_normal (h : Normal x m e) : x.isFinite = true := by
  obtain ⟨⟨hm, hu⟩, -⟩ := h
  have hx : x.isFinite = x.toModel.unpack.isFinite := rfl
  rw [hx, hu]
  rfl

lemma unpack_pack {h : 0 < m} (hm : m.log2 = 52) (hlo : -1074 ≤ e) (hhi : e ≤ 971) :
    unpack Format.binary64 (pack Format.binary64 (.finite .positive m e h)) =
      .finite .positive m e h := by
  obtain ⟨hge, hlt⟩ := places_of_log2 hm
  exact Canonical.unpack_pack ⟨h, hlt, hlo, hhi, fun _ => hge⟩ .positive

/-- A product of two mantissas of all 53 places has 105 or 106 places. -/
lemma Normal.log2_mul (hx : Normal x m e) (hy : Normal y n f) :
    104 ≤ (m * n).log2 ∧ (m * n).log2 ≤ 105 := by
  obtain ⟨hmlo, hmhi⟩ := hx.places
  obtain ⟨hnlo, hnhi⟩ := hy.places
  have hlo : 2 ^ 52 * 2 ^ 52 ≤ m * n := Nat.mul_le_mul hmlo hnlo
  have hhi : m * n < 2 ^ 53 * 2 ^ 53 := Nat.mul_lt_mul'' hmhi hnhi
  exact ⟨(Nat.le_log2 (by omega)).mpr (by omega), log2_le_of_lt (by omega)⟩

/-! ### Rounding -/

lemma targetExponent_eq (t : ℤ) : Format.binary64.targetExponent t = max (t - 53) (-1074) := rfl

lemma le_roundedMantissa (em : ExtendedMantissa) : em.mantissa ≤ em.roundedMantissa := by
  obtain ⟨m, r, s⟩ := em
  cases r <;> cases s <;>
    simp only [ExtendedMantissa.roundedMantissa, ExtendedMantissa.accuracy,
      Accuracy.roundToNearestEven] <;> omega

/-- A number that is not too large to be rounded: it has fewer places before the point than the
largest finite number, or as many, and its first 53 are not all ones. -/
def Fits (m : ℕ) (e : ℤ) : Prop :=
  e + m.log2 ≤ 1022 ∨ e + m.log2 = 1023 ∧ m / 2 ^ (m.log2 - 52) + 1 < 2 ^ 53

/-- What is left of a mantissa of at least 53 places is rounded to one of them, up or down; only
the mantissa of a power of two is halved once more. -/
lemma exists_roundWithAccuracy {a : Accuracy} (hm : 52 ≤ m.log2) (hlo : -1074 ≤ e)
    (hhi : Fits m e) : ∃ k r m' e' h, m.log2 = 52 + k ∧ m / 2 ^ k ≤ r ∧
      r ≤ m / 2 ^ k + 1 ∧ m'.log2 = 52 ∧
      unpack Format.binary64 (pack Format.binary64
        (roundWithAccuracy Format.binary64 .positive m e a)) = .finite .positive m' e' h ∧
      (m' = r ∧ e' = e + k ∨ r = 2 * m' ∧ e' = e + k + 1) := by
  obtain ⟨k, hk⟩ := Nat.exists_eq_add_of_le hm
  have hfits : e + k ≤ 970 ∨ e + k = 971 ∧ m / 2 ^ k + 1 < 2 ^ 53 := by
    rcases hhi with hhi | ⟨hhi, htop⟩
    · exact .inl (by omega)
    · rw [hk, Nat.add_sub_cancel_left] at htop
      exact .inr ⟨by omega, htop⟩
  have htarget (n : ℕ) (f : ℤ) : Format.binary64.targetExponent (totalExponent n f) =
      max (n.log2 + f - 52) (-1074) := by
    rw [targetExponent_eq, totalExponent]
    omega
  obtain ⟨hqlo, hqhi⟩ := places_of_cut hk
  have hshift : (Format.binary64.targetExponent (totalExponent m e) - e).toNat = k := by
    rw [htarget]
    omega
  unfold roundWithAccuracy shiftToTargetExponent shiftToExponent
  dsimp only
  rw [hshift]
  set r := (ExtendedMantissa.ofMantissaAndAccuracy m a >>> k).roundedMantissa
  have hrlo : m / 2 ^ k ≤ r := by
    have := le_roundedMantissa (ExtendedMantissa.ofMantissaAndAccuracy m a >>> k)
    rwa [mantissa_shift, mantissa_ofMantissaAndAccuracy] at this
  have hrhi : r ≤ m / 2 ^ k + 1 := by
    have := roundedMantissa_le (ExtendedMantissa.ofMantissaAndAccuracy m a >>> k)
    rwa [mantissa_shift, mantissa_ofMantissaAndAccuracy] at this
  rw [htarget, mantissa_shift, mantissa_ofMantissaAndAccuracy]
  rcases Nat.lt_or_eq_of_le (show r ≤ 2 ^ 53 by omega) with hsmall | hcarry
  · have hlog : r.log2 = 52 := (Nat.log2_eq_iff (by omega)).mpr ⟨by omega, hsmall⟩
    have hl : (max (r.log2 + (e + k) - 52) (-1074) - (e + k)).toNat = 0 := by omega
    rw [hl, Nat.pow_zero, Nat.div_one, dif_neg (by omega), Nat.cast_zero, add_zero]
    exact ⟨k, r, r, e + k, by omega, hk, hrlo, hrhi, hlog, unpack_pack hlog (by omega) (by omega),
      .inl ⟨rfl, rfl⟩⟩
  · have hl : (max (r.log2 + (e + k) - 52) (-1074) - (e + k)).toNat = 1 := by
      rw [hcarry, Nat.log2_two_pow]
      omega
    rw [hl, dif_neg (by omega), Nat.cast_one]
    have hlog : (r / 2 ^ 1).log2 = 52 := by rw [hcarry]; decide
    exact ⟨k, r, r / 2 ^ 1, e + k + 1, by omega, hk, hrlo, hrhi, hlog,
      unpack_pack hlog (by omega) (by omega), .inr ⟨by omega, rfl⟩⟩

/-- Cut to 53 places and rounded either way, a mantissa is off by at most one of the last. -/
lemma within_of_cut {k r : ℕ} {v : ℚ} (hm : m.log2 = 52 + k) (hlo : m / 2 ^ k ≤ r)
    (hhi : r ≤ m / 2 ^ k + 1) (hge : m * 2 ^ e ≤ v) (hle : v ≤ (m + 1) * 2 ^ e) :
    Within 1 (r * 2 ^ (e + k)) v := by
  -- all are counted in units of the last place that is kept
  set q := m / 2 ^ k
  have hqlo : 2 ^ 52 ≤ q := (places_of_cut hm).1
  have hunit : (2 : ℚ) ^ (e + k) = 2 ^ k * 2 ^ e := by
    rw [zpow_add₀ two_ne_zero, zpow_natCast, mul_comm]
  have hpos : (0 : ℚ) < 2 ^ (e + k) := by positivity
  have hlower : (q * 2 ^ (e + k) : ℚ) ≤ v := by
    have hcut : q * 2 ^ k ≤ m := Nat.div_mul_le_self m (2 ^ k)
    have hcut : (q * 2 ^ k : ℚ) ≤ m := by exact_mod_cast hcut
    calc (q * 2 ^ (e + k) : ℚ) = q * 2 ^ k * 2 ^ e := by rw [hunit]; ring
      _ ≤ m * 2 ^ e := mul_le_mul_of_nonneg_right hcut (by positivity)
      _ ≤ v := hge
  have hupper : v ≤ (q + 1) * 2 ^ (e + k) := by
    have hcut : m + 1 ≤ (q + 1) * 2 ^ k :=
      Nat.lt_mul_of_div_lt (Nat.lt_succ_self q) (Nat.two_pow_pos k)
    have hcut : (m + 1 : ℚ) ≤ (q + 1) * 2 ^ k := by exact_mod_cast hcut
    calc v ≤ (m + 1) * 2 ^ e := hle
      _ ≤ (q + 1) * 2 ^ k * 2 ^ e := mul_le_mul_of_nonneg_right hcut (by positivity)
      _ = (q + 1) * 2 ^ (e + k) := by rw [hunit]; ring
  have hrlo : (q * 2 ^ (e + k) : ℚ) ≤ r * 2 ^ (e + k) :=
    mul_le_mul_of_nonneg_right (by exact_mod_cast hlo) hpos.le
  have hrhi : (r * 2 ^ (e + k) : ℚ) ≤ (q + 1) * 2 ^ (e + k) :=
    mul_le_mul_of_nonneg_right (by exact_mod_cast hhi) hpos.le
  have hulp : (2 : ℚ) ^ (e + k) ≤ ulp * v := by
    have hqlo : (2 ^ 52 : ℚ) ≤ q := by exact_mod_cast hqlo
    calc (2 : ℚ) ^ (e + k) = ulp * (2 ^ 52 * 2 ^ (e + k)) := by unfold ulp; ring
      _ ≤ ulp * (q * 2 ^ (e + k)) :=
        mul_le_mul_of_nonneg_left (mul_le_mul_of_nonneg_right hqlo hpos.le) ulp_pos.le
      _ ≤ ulp * v := mul_le_mul_of_nonneg_left hlower ulp_pos.le
  rw [add_mul, one_mul] at hupper hrhi
  exact Within.one (by linarith) (by linarith)

/-- **A rounded number is within one unit in the last place** of every number that its mantissa may
have been cut from. -/
lemma exists_normal_of_round {a : Accuracy} (hx : x.toModel.unpack = unpack Format.binary64
      (pack Format.binary64 (roundWithAccuracy Format.binary64 .positive m e a)))
    (hm : 52 ≤ m.log2) (hlo : -1074 ≤ e) (hhi : Fits m e) :
    ∃ m' e', Normal x m' e' ∧ e + m.log2 - 52 ≤ e' ∧ e' ≤ e + m.log2 - 51 ∧
      ∀ v : ℚ, m * 2 ^ e ≤ v → v ≤ (m + 1) * 2 ^ e → Within 1 (m' * 2 ^ e') v := by
  obtain ⟨k, r, m', e', h, hk, hrlo, hrhi, hlog, hround, heq⟩ :=
    exists_roundWithAccuracy (a := a) hm hlo hhi
  have hvalue : (m' * 2 ^ e' : ℚ) = r * 2 ^ (e + k) := by
    rcases heq with ⟨rfl, rfl⟩ | ⟨rfl, rfl⟩
    · rfl
    · rw [zpow_add_one₀ two_ne_zero]
      push_cast
      ring
  refine ⟨m', e', ⟨⟨h, hx.trans hround⟩, hlog⟩, by omega, by omega, fun v hge hle => ?_⟩
  rw [hvalue]
  exact within_of_cut hk hrlo hrhi hge hle

lemma le_add_one_mul (n : ℕ) (e : ℤ) : (n * 2 ^ e : ℚ) ≤ (n + 1) * 2 ^ e :=
  mul_le_mul_of_nonneg_right (by linarith) (by positivity)

lemma shift_value (n k : ℕ) (e : ℤ) : ((n <<< k : ℕ) * 2 ^ e : ℚ) = n * 2 ^ (k + e) := by
  rw [Nat.shiftLeft_eq, Nat.cast_mul, Nat.cast_pow, Nat.cast_ofNat, mul_assoc, ← zpow_natCast,
    ← zpow_add₀ two_ne_zero]

/-! ### Operations -/

lemma unpack_toFloat (hn : 0 < n) (hlt : n < 2 ^ 53) : n.toUInt64.toFloat.toModel.unpack =
    unpack Format.binary64 (pack Format.binary64 (roundWithAccuracy Format.binary64 .positive
      (n <<< (52 - n.log2)) (n.log2 - 52) .exact)) := by
  have hlog : n.log2 ≤ 52 := log2_le_of_lt hlt
  have htoNat : n.toUInt64.toNat = n := by
    change n % 2 ^ 64 = n
    omega
  have hofNat : n.toUInt64.toFloat.toModel.unpack = unpack Format.binary64 (pack Format.binary64
      (ofInt Format.binary64 n.toUInt64.toNat)) := rfl
  have htarget : Format.binary64.targetExponent (totalExponent n 0) = n.log2 - 52 := by
    rw [targetExponent_eq, totalExponent]
    omega
  have hplaces : (0 - ((n.log2 : ℤ) - 52)).toNat = 52 - n.log2 := by omega
  have hexponent : (0 : ℤ) - (52 - n.log2 : ℕ) = n.log2 - 52 := by omega
  rw [hofNat, htoNat]
  unfold ofInt UnpackedFloat.normalize UnpackedFloat.round decreaseExponent
  rw [Int.compare_eq_gt.mpr (by omega)]
  dsimp only
  rw [Int.toNat_natCast, htarget, hplaces, hexponent]

lemma log2_full (hn : 0 < n) (hlt : n < 2 ^ 53) : (n <<< (52 - n.log2)).log2 = 52 := by
  have hlog : n.log2 ≤ 52 := log2_le_of_lt hlt
  rw [log2_shiftLeft (Nat.pos_iff_ne_zero.mp hn)]
  omega

lemma value_full (hlt : n < 2 ^ 53) :
    ((n <<< (52 - n.log2) : ℕ) * 2 ^ ((n.log2 : ℤ) - 52) : ℚ) = n := by
  have hlog : n.log2 ≤ 52 := log2_le_of_lt hlt
  have hexponent : ((52 - n.log2 : ℕ) : ℤ) + (n.log2 - 52) = 0 := by omega
  rw [shift_value, hexponent, zpow_zero, mul_one]

lemma exists_normal_ofNat (hn : 0 < n) (hlt : n < 2 ^ 53) :
    ∃ m e, Normal n.toUInt64.toFloat m e ∧ -52 ≤ e ∧ e ≤ 1 ∧ Within 1 (m * 2 ^ e) n := by
  have hlog : n.log2 ≤ 52 := log2_le_of_lt hlt
  have hx := unpack_toFloat hn hlt
  have hvalue := value_full hlt
  have hshift := log2_full hn hlt
  obtain ⟨m, e, hnormal, hlo, hhi, hwithin⟩ :=
    exists_normal_of_round hx (by omega) (by omega) (.inl (by omega))
  exact ⟨m, e, hnormal, by omega, by omega,
    hwithin n hvalue.le (hvalue.symm.le.trans (le_add_one_mul _ _))⟩

lemma exists_normal_mul (hx : Normal x m e) (hy : Normal y n f) (hlo : -1074 ≤ e + f)
    (hhi : Fits (m * n) (e + f)) : ∃ m' e', Normal (x * y) m' e' ∧
      e + f + (m * n).log2 - 52 ≤ e' ∧ e' ≤ e + f + (m * n).log2 - 51 ∧
      Within 1 (m' * 2 ^ e') (m * 2 ^ e * (n * 2 ^ f)) := by
  have hlog := hx.log2_mul hy
  obtain ⟨⟨hm0, hu⟩, -⟩ := hx
  obtain ⟨⟨hn0, hv⟩, -⟩ := hy
  have hmul : (x * y).toModel.unpack = unpack Format.binary64 (pack Format.binary64
      (roundWithAccuracy Format.binary64 .positive (m * n) (e + f) .exact)) := by
    have h : (x * y).toModel.unpack = unpack Format.binary64 (pack Format.binary64
      (mul Format.binary64 x.toModel.unpack y.toModel.unpack)) := rfl
    rw [h, hu, hv]
    rfl
  obtain ⟨m', e', hnormal, hlo, hhi, hwithin⟩ := exists_normal_of_round hmul (by omega) hlo hhi
  have hvalue : ((m * n : ℕ) * 2 ^ (e + f) : ℚ) = m * 2 ^ e * (n * 2 ^ f) := by
    rw [zpow_add₀ two_ne_zero, Nat.cast_mul]
    ring
  exact ⟨m', e', hnormal, hlo, hhi,
    hwithin _ hvalue.le (hvalue.symm.le.trans (le_add_one_mul _ _))⟩

lemma normal_of_unpack_one (hy : y.toModel.unpack = one) : Normal y (2 ^ 52) (-52) :=
  ⟨⟨by decide, hy⟩, by decide⟩

lemma exists_normal_mul_one (hx : Normal x m e) (hy : y.toModel.unpack = one) (hlo : -1022 ≤ e)
    (hhi : e ≤ 970) : ∃ m' e', Normal (x * y) m' e' ∧ e ≤ e' ∧ e' ≤ e + 1 ∧
      Within 1 (m' * 2 ^ e') (m * 2 ^ e) := by
  have hlog : (m * 2 ^ 52).log2 = 104 := by
    rw [← Nat.shiftLeft_eq, log2_shiftLeft (by have := hx.places; omega), hx.log2]
  obtain ⟨m', e', hnormal, hlo', hhi', hwithin⟩ :=
    exists_normal_mul hx (normal_of_unpack_one hy) (by omega) (.inl (by omega))
  have hone : (((2 ^ 52 : ℕ) : ℚ) * 2 ^ (-52 : ℤ)) = 1 := by norm_num
  rw [hone, mul_one] at hwithin
  exact ⟨m', e', hnormal, by omega, by omega, hwithin⟩

lemma exists_normal_div (hx : Normal x m e) (hy : Normal y n f) (hlo : -1021 ≤ e - f)
    (hhi : e - f ≤ 1021) : ∃ m' e', Normal (x / y) m' e' ∧ e - f - 53 ≤ e' ∧ e' ≤ e - f - 51 ∧
      Within 1 (m' * 2 ^ e') (m * 2 ^ e / (n * 2 ^ f)) := by
  have hmp := hx.places
  have hnp := hy.places
  obtain ⟨⟨hm0, hu⟩, hm⟩ := hx
  obtain ⟨⟨hn0, hv⟩, hn⟩ := hy
  have htarget : min (e - f)
      (Format.binary64.targetExponent (totalExponent m e - totalExponent n f)) = e - f - 53 := by
    rw [targetExponent_eq, totalExponent, totalExponent]
    omega
  have hshift : (e - f - (e - f - 53)).toNat = 53 := by omega
  set q := m * 2 ^ 53 / n
  have hdiv : (x / y).toModel.unpack = unpack Format.binary64 (pack Format.binary64
      (roundWithAccuracy Format.binary64 .positive q (e - f - 53)
        (accuracyOfFraction (m * 2 ^ 53 % n) n))) := by
    have h : (x / y).toModel.unpack = unpack Format.binary64 (pack Format.binary64
      (div Format.binary64 x.toModel.unpack y.toModel.unpack)) := rfl
    rw [h, hu, hv]
    unfold div divCore
    dsimp only
    rw [htarget, hshift, Nat.shiftLeft_eq]
    rfl
  have hqlo : 2 ^ 52 ≤ q := (Nat.le_div_iff_mul_le hn0).mpr (by omega)
  have hqhi : q < 2 ^ 54 := (Nat.div_lt_iff_lt_mul hn0).mpr (by omega)
  have hlog : q.log2 ≤ 53 := log2_le_of_lt hqhi
  have hlog' : 52 ≤ q.log2 := (Nat.le_log2 (by omega)).mpr hqlo
  obtain ⟨m', e', hnormal, hlo, hhi, hwithin⟩ :=
    exists_normal_of_round hdiv hlog' (by omega) (.inl (by omega))
  have hn0' : (0 : ℚ) < n := Nat.cast_pos.mpr hn0
  have hvalue : (m * 2 ^ e / (n * 2 ^ f) : ℚ) = m * 2 ^ 53 / n * 2 ^ (e - f - 53) := by
    rw [zpow_sub₀ two_ne_zero, zpow_sub₀ two_ne_zero]
    field_simp
  have hlower : (q : ℚ) ≤ m * 2 ^ 53 / n := by
    rw [le_div_iff₀ hn0']
    exact_mod_cast Nat.div_mul_le_self (m * 2 ^ 53) n
  have hupper : (m * 2 ^ 53 / n : ℚ) ≤ q + 1 := by
    rw [div_le_iff₀ hn0']
    exact_mod_cast (Nat.lt_mul_of_div_lt (Nat.lt_succ_self q) hn0).le
  refine ⟨m', e', hnormal, by omega, by omega, hwithin _ ?_ ?_⟩ <;> rw [hvalue]
  · exact mul_le_mul_of_nonneg_right hlower (by positivity)
  · exact mul_le_mul_of_nonneg_right hupper (by positivity)

/-! ### Decimals -/

lemma unpack_power (k : Fin 23) :
    Float.exactlyRepresentablePowersOfTen[k].toModel.unpack =
      .finite .positive (5 ^ k.val <<< (52 - (5 ^ k.val).log2))
        (k.val - (52 - (5 ^ k.val).log2 : ℕ))
        (Nat.shiftLeft_pos_iff.mpr (Nat.pow_pos (Nat.succ_pos 4))) := by
  fin_cases k <;> rfl

lemma exists_normal_power {k : ℕ} (hk : k < 23) :
    ∃ m e, Normal Float.exactlyRepresentablePowersOfTen[k] m e ∧ -52 ≤ e ∧ e ≤ 22 ∧
      (m * 2 ^ e : ℚ) = 10 ^ k := by
  have hpow : 5 ^ k < 2 ^ 53 :=
    Nat.lt_of_le_of_lt (Nat.pow_le_pow_right (by decide) (Nat.le_of_lt_succ hk)) (by decide)
  have hlog : (5 ^ k).log2 ≤ 52 := log2_le_of_lt hpow
  have hshift : (5 ^ k <<< (52 - (5 ^ k).log2)).log2 = 52 := by
    rw [log2_shiftLeft (Nat.pos_iff_ne_zero.mp (by positivity))]
    omega
  refine ⟨_, _, ⟨⟨_, unpack_power ⟨k, hk⟩⟩, hshift⟩, by omega, by omega, ?_⟩
  have hexponent : ((52 - (5 ^ k).log2 : ℕ) : ℤ) + (k - (52 - (5 ^ k).log2 : ℕ)) = k := by omega
  rw [shift_value, hexponent, zpow_natCast, Nat.cast_pow, Nat.cast_ofNat, ← mul_pow]
  norm_num

/-- **A decimal of up to 53 places and 22 digits behind the point is read to within two
roundings.** -/
lemma exists_normal_ofScaled {k : ℕ} (hn : 0 < n) (hlt : n < 2 ^ 53) (hk : k < 23) :
    ∃ m e, Normal (ofScaled n (-k)) m e ∧ -127 ≤ e ∧ e ≤ 2 ∧ Within 2 (m * 2 ^ e) (n / 10 ^ k) := by
  obtain ⟨m, e, hnormal, hlo, hhi, hwithin⟩ := exists_normal_ofNat hn hlt
  have hsmall : n < 2 ^ 53 ∧ (-(k : ℤ)).natAbs ≤ 22 := ⟨hlt, by omega⟩
  unfold ofScaled Float.ofScientific
  rw [dif_pos hsmall]
  dsimp only
  rcases Nat.eq_zero_or_pos k with rfl | hpos
  · rw [if_neg (by decide)]
    obtain ⟨m', e', hnormal', hlo', hhi', hwithin'⟩ :=
      exists_normal_mul_one hnormal unpack_one (by omega) (by omega)
    refine ⟨m', e', hnormal', by omega, by omega, ?_⟩
    rw [pow_zero, div_one]
    exact hwithin'.trans hwithin
  · rw [if_pos (decide_eq_true (by omega))]
    obtain ⟨m₂, e₂, hnormal₂, hlo₂, hhi₂, hvalue⟩ := exists_normal_power hk
    have habs : (-(k : ℤ)).natAbs = k := by omega
    simp only [habs]
    obtain ⟨m', e', hnormal', hlo', hhi', hwithin'⟩ :=
      exists_normal_div hnormal hnormal₂ (by omega) (by omega)
    rw [hvalue] at hwithin'
    exact ⟨m', e', hnormal', by omega, by omega, hwithin'.trans (hwithin.div (by positivity))⟩

end Tariff.Decimal
