import Mathlib.Algebra.Group.Nat.Defs
import Mathlib.Tactic.Common
import Tariff.Decimal.Reader

/-!
Finite numbers. A finite number equals itself, and stays finite when it is divided by a number of
at least two: the quotient loses at least one binary place, and rounding wins back at most one.
-/

namespace Tariff.Decimal

open Float.Model (UnpackedFloat Format totalExponent)
open Float.Model.UnpackedFloat

/-! ### Packing -/

/-- An exponent field of ones is that of an infinity or of no number. Any other is that of a finite
number, less than `2 ^ 53` times a power of two up to 971. -/
lemma unpack_cases (b : BitVec Format.binary64.numBits) :
    unpackExponent b = -1#_ ∧ (unpack Format.binary64 b).isFinite = false ∨
      unpackExponent b ≠ -1#_ ∧ (unpack Format.binary64 b).isFinite = true ∧
        ∀ s m e h, unpack Format.binary64 b = .finite s m e h → m < 2 ^ 53 ∧ e ≤ 971 := by
  have hm : (@unpackMantissa Format.binary64 b).toNat < 2 ^ 52 := BitVec.isLt _
  have hx : (@unpackExponent Format.binary64 b).toNat < 2 ^ 11 := BitVec.isLt _
  have hbias : Format.binary64.exponentBias = 1023 := rfl
  unfold unpack
  dsimp only
  rw [hbias]
  by_cases hones : unpackExponent b = -1#_
  · rw [if_pos hones]
    refine .inl ⟨hones, ?_⟩
    by_cases h0 : unpackMantissa b = 0#_
    · rw [if_pos h0]; rfl
    · rw [if_neg h0]; rfl
  · rw [if_neg hones]
    refine .inr ⟨hones, ?_⟩
    by_cases hzero : unpackExponent b = 0#_
    · rw [if_pos hzero]
      by_cases h0 : unpackMantissa b = 0#_
      · rw [dif_pos h0]
        exact ⟨rfl, fun s m e h heq => by cases heq⟩
      · rw [dif_neg h0, hzero]
        refine ⟨rfl, fun s m e h heq => ?_⟩
        cases heq
        exact ⟨by omega, by decide⟩
    · rw [if_neg hzero]
      have hne : (@unpackExponent Format.binary64 b).toNat ≠ 2047 :=
        fun hc => hones (BitVec.eq_of_toNat_eq hc)
      refine ⟨rfl, fun s m e h heq => ?_⟩
      cases heq
      exact ⟨BitVec.isLt (1#1 ++ @unpackMantissa Format.binary64 b), by omega⟩

lemma isFinite_unpack {b : BitVec Format.binary64.numBits} :
    (unpack Format.binary64 b).isFinite = true ↔ unpackExponent b ≠ -1#_ := by
  rcases unpack_cases b with ⟨hones, h⟩ | ⟨hones, h, -⟩
  · exact iff_of_false (by rw [h]; exact Bool.false_ne_true) fun hn => hn hones
  · exact iff_of_true h hones

/-- The exponent field of a finite number is not the one of the infinities. -/
lemma isFinite_pack {s : Sign} {m : Nat} {e : Int} {h : 0 < m} (he : e ≤ 971) :
    (unpack Format.binary64 (pack Format.binary64 (.finite s m e h))).isFinite = true := by
  have hb : Format.binary64.exponentBias = 1023 := rfl
  rw [isFinite_unpack]
  unfold pack
  dsimp only
  rw [hb]
  split_ifs with h1
  · omega
  · rw [unpackExponent_packComponents]
    intro hx
    have hn := congrArg BitVec.toNat hx
    rw [BitVec.toNat_ofNat, Nat.mod_eq_of_lt (by omega)] at hn
    change _ = 2047 at hn
    omega
  · rw [unpackExponent_packComponents]
    decide

lemma isFinite_pack_zero (s : Sign) :
    (unpack Format.binary64 (pack Format.binary64 (.zero s))).isFinite = true := by
  rw [isFinite_unpack]
  unfold pack packedZero
  dsimp only
  rw [unpackExponent_packComponents]
  decide

/-- The greatest finite number has 1024 binary places before the point. -/
lemma totalExponent_unpack {b : BitVec Format.binary64.numBits} {s : Sign} {m : Nat} {e : Int}
    {h : 0 < m} (hb : unpack Format.binary64 b = .finite s m e h) : totalExponent m e ≤ 1024 := by
  rcases unpack_cases b with ⟨-, hf⟩ | ⟨-, -, hf⟩
  · rw [hb] at hf; cases hf
  · obtain ⟨hm, he⟩ := hf s m e h hb
    have := (Nat.log2_lt (Nat.pos_iff_ne_zero.mp h)).mpr hm
    unfold totalExponent
    omega

/-! ### Rounding -/

lemma mantissa_shift (em : ExtendedMantissa) (k : Nat) :
    (em >>> k).mantissa = em.mantissa / 2 ^ k := by
  induction k with
  | zero => exact (Nat.div_one _).symm
  | succ k ih =>
    have hs : (em >>> (k + 1)).mantissa = (em >>> k).mantissa / 2 := rfl
    rw [hs, ih, Nat.div_div_eq_div_mul, Nat.pow_succ]

lemma roundedMantissa_le (em : ExtendedMantissa) : em.roundedMantissa ≤ em.mantissa + 1 := by
  obtain ⟨m, r, s⟩ := em
  cases r <;> cases s <;>
    simp only [ExtendedMantissa.roundedMantissa, ExtendedMantissa.accuracy,
      Accuracy.roundToNearestEven] <;> omega

lemma mantissa_ofMantissaAndAccuracy (m : Nat) (a : Accuracy) :
    (ExtendedMantissa.ofMantissaAndAccuracy m a).mantissa = m := by
  rcases a with - | o
  · rfl
  · cases o <;> rfl

lemma log2_le_of_lt {m k : Nat} (h : m < 2 ^ (k + 1)) : m.log2 ≤ k := by
  rcases Nat.eq_zero_or_pos m with rfl | hm
  · simp
  · exact Nat.le_of_lt_succ ((Nat.log2_lt (Nat.pos_iff_ne_zero.mp hm)).mpr h)

/-- A mantissa that is shifted by `k` places and then rounded up wins back at most one. -/
lemma log2_le_of_le_shift {r m k : Nat} (h : r ≤ m / 2 ^ k + 1) : r.log2 ≤ m.log2 + 1 - k := by
  refine log2_le_of_lt (Nat.lt_of_le_of_lt h ?_)
  have hm : m < 2 ^ (m.log2 + 1) := Nat.lt_log2_self
  have hp : 2 ^ (m.log2 + 1) ≤ 2 ^ (m.log2 + 1 - k) * 2 ^ k := by
    rw [← Nat.pow_add]
    exact Nat.pow_le_pow_right (by decide) (by omega)
  have hd : m / 2 ^ k < 2 ^ (m.log2 + 1 - k) :=
    (Nat.div_lt_iff_lt_mul (Nat.two_pow_pos k)).mpr (Nat.lt_of_lt_of_le hm hp)
  have := Nat.two_pow_pos (m.log2 + 1 - k)
  rw [Nat.pow_succ]
  omega

/-- The exponent after rounding stays in range if there is one binary place to spare. -/
lemma isFinite_roundWithAccuracy {s : Sign} {m : Nat} {e : Int} {a : Accuracy}
    (ht : totalExponent m e ≤ 1023) (he : e ≤ 970) :
    (unpack Format.binary64 (pack Format.binary64
      (roundWithAccuracy Format.binary64 s m e a))).isFinite = true := by
  unfold roundWithAccuracy shiftToTargetExponent shiftToExponent
  dsimp only
  set k := (Format.targetExponent Format.binary64 (totalExponent m e) - e).toNat with hk
  set r := (ExtendedMantissa.ofMantissaAndAccuracy m a >>> k).roundedMantissa with hr
  have hr' : r ≤ m / 2 ^ k + 1 := by
    have := roundedMantissa_le (ExtendedMantissa.ofMantissaAndAccuracy m a >>> k)
    rwa [mantissa_shift, mantissa_ofMantissaAndAccuracy] at this
  have hlog := log2_le_of_le_shift hr'
  set l := (Format.targetExponent Format.binary64 (totalExponent r (e + k)) - (e + k)).toNat with hl
  by_cases h0 : (ExtendedMantissa.ofMantissaAndAccuracy r .exact >>> l).mantissa = 0
  · rw [dif_pos h0]
    exact isFinite_pack_zero s
  · rw [dif_neg h0]
    refine isFinite_pack ?_
    have hbits : Format.binary64.mantissaBits = 53 := rfl
    simp only [Format.targetExponent, Format.minExponent, hbits, totalExponent] at *
    omega

lemma isFinite_zero : (0 : Float).isFinite = true := by decide +kernel

/-! ### Division -/

def AtLeastTwo (y : Float) : Prop :=
  ∃ s m e h, y.toModel.unpack = .finite s m e h ∧ 2 ≤ totalExponent m e

lemma atLeastTwo_hundred : AtLeastTwo 100 :=
  ⟨.positive, 100 <<< 46, -46, by decide, by rfl, by decide⟩

/-- A quotient has no more places than its operands say, up to one. -/
lemma log2_div_le {m k d : Nat} (hd : 0 < d) (h : d ≤ m <<< k) :
    (m <<< k / d).log2 + d.log2 ≤ m.log2 + k := by
  have hq : m <<< k / d ≠ 0 := Nat.pos_iff_ne_zero.mp (Nat.div_pos h hd)
  have hm : m < 2 ^ (m.log2 + 1) := Nat.lt_log2_self
  have h1 : 2 ^ ((m <<< k / d).log2 + d.log2) ≤ m <<< k := by
    rw [Nat.pow_add]
    exact Nat.le_trans (Nat.mul_le_mul (Nat.log2_self_le hq)
      (Nat.log2_self_le (Nat.pos_iff_ne_zero.mp hd))) (Nat.div_mul_le_self _ _)
  have h2 : m <<< k < 2 ^ (m.log2 + k + 1) := by
    rw [Nat.shiftLeft_eq, Nat.add_right_comm, Nat.pow_add]
    exact Nat.mul_lt_mul_of_pos_right hm (Nat.two_pow_pos k)
  have := (Nat.pow_lt_pow_iff_right (by decide : 1 < 2)).mp (Nat.lt_of_le_of_lt h1 h2)
  omega

lemma isFinite_div_core {s₁ s₂ : Sign} {m₁ m₂ : Nat} {e₁ e₂ : Int} {h₁ : 0 < m₁} {h₂ : 0 < m₂}
    (ht₁ : totalExponent m₁ e₁ ≤ 1024) (ht₂ : 2 ≤ totalExponent m₂ e₂) :
    (unpack Format.binary64 (pack Format.binary64
      (div Format.binary64 (.finite s₁ m₁ e₁ h₁) (.finite s₂ m₂ e₂ h₂)))).isFinite = true := by
  unfold div divCore
  dsimp only
  set t := Format.binary64.targetExponent (totalExponent m₁ e₁ - totalExponent m₂ e₂) with ht
  set k := (e₁ - e₂ - min (e₁ - e₂) t).toNat with hk
  have ht' : t ≤ 969 := by
    have hbits : Format.binary64.mantissaBits = 53 := rfl
    simp only [Format.targetExponent, Format.minExponent, hbits] at ht
    omega
  refine isFinite_roundWithAccuracy ?_ (by omega)
  by_cases hq : m₂ ≤ m₁ <<< k
  · have := log2_div_le h₂ hq
    unfold totalExponent at *
    omega
  · rw [Nat.div_eq_of_lt (Nat.lt_of_not_le hq)]
    simp only [totalExponent, Nat.log2_zero]
    omega

lemma isFinite_div {x y : Float} (hx : x.isFinite = true) (hy : AtLeastTwo y) :
    (x / y).isFinite = true := by
  obtain ⟨s, m, e, h, hu, ht⟩ := hy
  have hdiv : (x / y).isFinite = (unpack Format.binary64 (pack Format.binary64
      (div Format.binary64 x.toModel.unpack y.toModel.unpack))).isFinite := rfl
  have hx' : x.toModel.unpack.isFinite = true := hx
  rw [hdiv, hu]
  cases hx₂ : x.toModel.unpack with
  | notANumber | infinity => rw [hx₂] at hx'; cases hx'
  | zero => exact isFinite_pack_zero _
  | finite => exact isFinite_div_core (totalExponent_unpack hx₂) ht

/-! ### Comparison -/

lemma beq_self_of_isFinite {x : Float} (h : x.isFinite = true) : (x == x) = true := by
  have hx : x.toModel.unpack.isFinite = true := h
  have hb : (x == x) = (x.toModel.unpack.compare x.toModel.unpack == some .eq) := rfl
  rw [hb]
  cases hx₂ : x.toModel.unpack with
  | notANumber | infinity => rw [hx₂] at hx; cases hx
  | zero => rfl
  | finite s m e =>
    unfold UnpackedFloat.compare
    cases s <;> dsimp only <;> simp

end Tariff.Decimal
