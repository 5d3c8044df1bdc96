import Tariff.Proofs.Decimal.Finite
import Tariff.Proofs.Decimal.Packed

/-!
Numbers from zero to one. A number of at most one stays so when something is taken off it: the
difference is below one before it is rounded, and one is a number that rounding does not pass.
-/

namespace Tariff.Decimal

open Float.Model (UnpackedFloat Format totalExponent)
open Float.Model.UnpackedFloat

/-! ### Order -/

lemma le_iff {x y : Float} :
    x ≤ y ↔ (x.toModel.unpack.compare y.toModel.unpack).any (·.isLE) = true := decide_eq_true_iff

lemma lt_iff {x y : Float} :
    x < y ↔ (x.toModel.unpack.compare y.toModel.unpack == some .lt) = true := decide_eq_true_iff

lemma compare_swap (a b : UnpackedFloat) : b.compare a = (a.compare b).map Ordering.swap := by
  have hsign (s t : Sign) : compare t s = (compare s t).swap := by cases s <;> cases t <;> rfl
  have hfinite (m₁ m₂ : Nat) (e₁ e₂ : Int) : (compare e₂ e₁).then (compare m₂ m₁) =
      ((compare e₁ e₂).then (compare m₁ m₂)).swap := by
    rw [Ordering.swap_then, ← Std.OrientedCmp.eq_swap, ← Std.OrientedCmp.eq_swap]
  cases a with
  | notANumber => cases b <;> rfl
  | infinity s =>
    cases b with
    | infinity t => exact congrArg some (hsign s t)
    | notANumber => cases s <;> rfl
    | zero t => cases s <;> rfl
    | finite t m e h => cases s <;> cases t <;> rfl
  | zero s =>
    cases b with
    | infinity t => cases t <;> rfl
    | notANumber | zero => rfl
    | finite t m e h => cases t <;> rfl
  | finite s m e h =>
    cases b with
    | infinity t => cases s <;> cases t <;> rfl
    | notANumber => cases s <;> rfl
    | zero t => cases s <;> rfl
    | finite t m' e' h' =>
      cases s <;> cases t
      · exact congrArg some (congrArg Ordering.swap (hfinite m m' e e'))
      · rfl
      · rfl
      · exact congrArg some (hfinite m m' e e')

lemma not_lt_of_le {x y : Float} (h : x ≤ y) : ¬y < x := by
  rw [lt_iff, compare_swap]
  rw [le_iff] at h
  intro hlt
  cases hc : x.toModel.unpack.compare y.toModel.unpack with
  | none => rw [hc] at h; cases h
  | some o =>
    rw [hc] at h hlt
    cases o
    · cases hlt
    · cases hlt
    · cases h

lemma le_of_lt {x y : Float} (h : x < y) : x ≤ y := by
  rw [lt_iff] at h
  rw [le_iff, eq_of_beq h]
  rfl

lemma exists_compare {a b : UnpackedFloat} (ha : a.isFinite = true) (hb : b.isFinite = true) :
    ∃ o, a.compare b = some o := by
  cases a with
  | notANumber | infinity => cases ha
  | zero s =>
    cases b with
    | notANumber | infinity => cases hb
    | zero => exact ⟨_, rfl⟩
    | finite t => cases t <;> exact ⟨_, rfl⟩
  | finite s =>
    cases b with
    | notANumber | infinity => cases hb
    | zero => cases s <;> exact ⟨_, rfl⟩
    | finite t => cases s <;> cases t <;> exact ⟨_, rfl⟩

lemma le_of_not_lt {x y : Float} (hx : x.isFinite = true) (hy : y.isFinite = true)
    (h : ¬y < x) : x ≤ y := by
  rw [lt_iff, compare_swap] at h
  rw [le_iff]
  obtain ⟨o, ho⟩ := exists_compare (a := x.toModel.unpack) (b := y.toModel.unpack) hx hy
  rw [ho] at h ⊢
  cases o
  · rfl
  · rfl
  · exact absurd rfl h

lemma unpack_zero : (0 : Float).toModel.unpack = .zero .positive := by rfl

lemma zero_le_of_not_lt {x y : Float} (h : x ≤ y) (hn : ¬x < 0) : 0 ≤ x := by
  rw [le_iff] at h
  rw [lt_iff, unpack_zero] at hn
  rw [le_iff, unpack_zero]
  cases hx : x.toModel.unpack with
  | notANumber => rw [hx] at h; cases h
  | infinity s =>
    rw [hx] at hn
    cases s
    · exact absurd rfl hn
    · rfl
  | zero => rfl
  | finite s m e =>
    rw [hx] at hn
    cases s
    · exact absurd rfl hn
    · rfl

lemma pos_of_not_le {x : Float} (hf : x.isFinite = true) (h : ¬x ≤ 0) : 0 < x := by
  have hfinite : x.toModel.unpack.isFinite = true := hf
  rw [le_iff, unpack_zero] at h
  rw [lt_iff, unpack_zero]
  cases hx : x.toModel.unpack with
  | notANumber | infinity => rw [hx] at hfinite; cases hfinite
  | zero => rw [hx] at h; exact absurd rfl h
  | finite s m e =>
    rw [hx] at h
    cases s
    · exact absurd rfl h
    · rfl

/-! ### Up to one -/

def one : UnpackedFloat := .finite .positive (2 ^ 52) (-52) (by decide)

lemma unpack_one : (1 : Float).toModel.unpack = one := by rfl

/-- The mantissa and the exponent of a number up to one. -/
def UpToOne (m : Nat) (e : Int) : Prop := e < -52 ∨ e = -52 ∧ m ≤ 2 ^ 52

lemma le_one_iff {x : Float} : x ≤ 1 ↔ x.toModel.unpack.le one = true := by
  rw [le_iff, unpack_one]
  rfl

lemma finite_le_one {m : Nat} {e : Int} {h : 0 < m} :
    (UnpackedFloat.finite .positive m e h).le one = true ↔ UpToOne m e := by
  change ((compare e (-52)).then (compare m (2 ^ 52))).isLE = true ↔ UpToOne m e
  unfold UpToOne
  rcases Int.lt_trichotomy e (-52) with hlt | rfl | hgt
  · rw [Int.compare_eq_lt.mpr hlt]
    exact iff_of_true rfl (.inl hlt)
  · rw [Int.compare_eq_eq.mpr rfl, Ordering.eq_then, Nat.isLE_compare]
    omega
  · rw [Int.compare_eq_gt.mpr hgt]
    exact iff_of_false Bool.false_ne_true (by omega)

lemma le_one_of_isFinite {u : UnpackedFloat} (hf : u.isFinite = true)
    (h : ∀ s m e hm, u = .finite s m e hm → UpToOne m e) : u.le one = true := by
  cases u with
  | notANumber | infinity => cases hf
  | zero => rfl
  | finite s m e hm =>
    cases s with
    | negative => rfl
    | positive => exact finite_le_one.mpr (h _ _ _ _ rfl)

/-- What the fields of a finite number say of its exponent, and of its mantissa where that is the
implicit bit alone. -/
lemma unpack_finite {b : BitVec Format.binary64.numBits} {s : Sign} {m : Nat} {e : Int} {h : 0 < m}
    (hu : unpack Format.binary64 b = .finite s m e h) :
    e = max (unpackExponent b).toNat 1 - 1075 ∧ (unpackMantissa b = 0#_ → m = 2 ^ 52) := by
  obtain ⟨-, -, hfields⟩ := unpack_eq_finite hu
  rcases hfields with ⟨hzero, hm, he⟩ | ⟨hpos, hm, he⟩
  · refine ⟨by rw [he, hzero]; rfl, fun h0 => ?_⟩
    rw [h0] at hm
    exact absurd hm (Nat.ne_of_gt h)
  · have hpos : (@unpackExponent Format.binary64 b).toNat ≠ 0 :=
      fun hc => hpos (BitVec.eq_of_toNat_eq hc)
    refine ⟨by omega, fun h0 => ?_⟩
    rw [hm, h0]
    rfl

lemma pack_fields {s : Sign} {m : Nat} {e : Int} {h : 0 < m}
    (he : e < -52 ∨ e = -52 ∧ m = 2 ^ 52) :
    (unpackExponent (pack Format.binary64 (.finite s m e h))).toNat ≤ (e + 1075).toNat ∧
      (e = -52 → unpackMantissa (pack Format.binary64 (.finite s m e h)) = 0#_) := by
  have hbias : Format.binary64.exponentBias = 1023 := rfl
  have hzero : e = -52 → BitVec.ofNat 52 m = 0#52 := fun hc => by
    obtain rfl : m = 2 ^ 52 := by omega
    decide
  unfold pack
  dsimp only
  rw [hbias]
  split_ifs with h1
  · omega
  · rw [unpackExponent_packComponents, unpackMantissa_packComponents, BitVec.toNat_ofNat]
    exact ⟨by omega, hzero⟩
  · rw [unpackExponent_packComponents, unpackMantissa_packComponents]
    exact ⟨Nat.zero_le _, hzero⟩

lemma pack_le_one {s : Sign} {m : Nat} {e : Int} {h : 0 < m}
    (he : e < -52 ∨ e = -52 ∧ m = 2 ^ 52) :
    (unpack Format.binary64 (pack Format.binary64 (.finite s m e h))).le one = true := by
  have hbias : Format.binary64.exponentBias = 1023 := rfl
  refine le_one_of_isFinite (isFinite_pack (by omega)) fun s' m' e' h' hu => ?_
  obtain ⟨he', hm'⟩ := unpack_finite hu
  obtain ⟨hfield, hzero⟩ := pack_fields (s := s) (h := h) he
  rcases he with he | ⟨he, -⟩
  · exact .inl (by omega)
  · have := hm' (hzero he)
    unfold UpToOne
    omega

lemma pack_zero_le_one (s : Sign) :
    (unpack Format.binary64 (pack Format.binary64 (.zero s))).le one = true := by
  refine le_one_of_isFinite (isFinite_pack_zero s) fun s' m e h hu => ?_
  have hfield : unpackExponent (pack Format.binary64 (.zero s)) = 0#_ :=
    unpackExponent_packComponents
  have := (unpack_finite hu).1
  rw [hfield] at this
  exact .inl (by rw [this]; decide)

/-! ### Rounding -/

/-- A rounded mantissa that takes one place too many is a power of two, and gives up a zero. -/
lemma carry {r : Nat} {t : Int} (hr : r ≤ 2 ^ 53) (ht : t ≤ -53) (hmin : -1074 ≤ t) {l : Nat}
    (hl : l = (Format.binary64.targetExponent (totalExponent r t) - t).toNat) :
    t + l < -52 ∨ t + l = -52 ∧ r / 2 ^ l = 2 ^ 52 := by
  have hbits : Format.binary64.mantissaBits = 53 := rfl
  have hmin : Format.binary64.minExponent = -1074 := rfl
  simp only [Format.targetExponent, hbits, hmin, totalExponent] at hl
  rcases Nat.lt_or_eq_of_le hr with hlt | rfl
  · have := log2_le_of_lt (k := 52) hlt
    exact .inl (by omega)
  · rw [Nat.log2_two_pow] at hl
    obtain rfl : l = 1 := by omega
    rcases Int.lt_or_eq_of_le ht with ht | rfl
    · exact .inl (by omega)
    · exact .inr (by decide)

lemma roundWithAccuracy_le_one {s : Sign} {m : Nat} {e : Int} (ht : totalExponent m e ≤ 0)
    (he : e ≤ Format.binary64.targetExponent (totalExponent m e)) :
    (unpack Format.binary64 (pack Format.binary64
      (roundWithAccuracy Format.binary64 s m e .exact))).le one = true := by
  unfold roundWithAccuracy shiftToTargetExponent shiftToExponent
  dsimp only
  set t := Format.targetExponent Format.binary64 (totalExponent m e) with hte
  set k := (t - e).toNat with hk
  set r := (ExtendedMantissa.ofMantissaAndAccuracy m .exact >>> k).roundedMantissa with hr
  have hr' : r ≤ m / 2 ^ k + 1 := by
    have := roundedMantissa_le (ExtendedMantissa.ofMantissaAndAccuracy m .exact >>> k)
    rwa [mantissa_shift, mantissa_ofMantissaAndAccuracy] at this
  have hbits : Format.binary64.mantissaBits = 53 := rfl
  have hmin : Format.binary64.minExponent = -1074 := rfl
  simp only [Format.targetExponent, hbits, hmin, totalExponent] at ht hte
  have hdiv : m / 2 ^ k < 2 ^ 53 := by
    rw [Nat.div_lt_iff_lt_mul (Nat.two_pow_pos k), ← Nat.pow_add]
    exact Nat.lt_of_lt_of_le Nat.lt_log2_self (Nat.pow_le_pow_right (by decide) (by omega))
  have het : e + k = t := by omega
  rw [het]
  set l := (Format.targetExponent Format.binary64 (totalExponent r t) - t).toNat with hl
  by_cases h0 : (ExtendedMantissa.ofMantissaAndAccuracy r .exact >>> l).mantissa = 0
  · rw [dif_pos h0]
    exact pack_zero_le_one s
  · rw [dif_neg h0]
    refine pack_le_one ?_
    rw [mantissa_shift, mantissa_ofMantissaAndAccuracy]
    exact carry (by omega) (by omega) (by omega) hl

lemma log2_shiftLeft {m : Nat} (h : m ≠ 0) (k : Nat) : (m <<< k).log2 = m.log2 + k := by
  rw [Nat.shiftLeft_eq, Nat.log2_eq_iff (Nat.mul_ne_zero h (Nat.ne_of_gt (Nat.two_pow_pos k))),
    Nat.add_right_comm, Nat.pow_add, Nat.pow_add]
  exact ⟨Nat.mul_le_mul_right _ (Nat.log2_self_le h),
    Nat.mul_lt_mul_of_pos_right Nat.lt_log2_self (Nat.two_pow_pos k)⟩

lemma round_le_one {s : Sign} {m : Nat} {e : Int} (h : m ≠ 0) (ht : totalExponent m e ≤ 0) :
    (unpack Format.binary64 (pack Format.binary64
      (UnpackedFloat.round Format.binary64 s m e))).le one = true := by
  unfold UnpackedFloat.round decreaseExponent
  dsimp only
  set k := (e - Format.binary64.targetExponent (totalExponent m e)).toNat with hk
  have hte : totalExponent (m <<< k) (e - k) = totalExponent m e := by
    unfold totalExponent
    rw [log2_shiftLeft h]
    omega
  refine roundWithAccuracy_le_one ?_ ?_ <;> rw [hte]
  · exact ht
  · omega

/-- A difference with a magnitude below one. -/
lemma normalize_le_one {d : Int} {e : Int} (hd : d.natAbs < 2 ^ (-e).toNat) :
    (unpack Format.binary64 (pack Format.binary64
      (UnpackedFloat.normalize Format.binary64 d e .positive))).le one = true := by
  unfold UnpackedFloat.normalize
  have hte {n : Nat} (h : n ≠ 0) (hn : n < 2 ^ (-e).toNat) : totalExponent n e ≤ 0 := by
    have := (Nat.log2_lt h).mpr hn
    unfold totalExponent
    omega
  rcases Int.lt_trichotomy d 0 with hlt | rfl | hgt
  · rw [Int.compare_eq_lt.mpr hlt]
    exact round_le_one (by omega) (hte (by omega) (by omega))
  · exact pack_zero_le_one _
  · rw [Int.compare_eq_gt.mpr hgt]
    exact round_le_one (by omega) (hte (by omega) (by omega))

/-! ### Difference -/

lemma shift_le {m : Nat} {e e' : Int} (hm : m < 2 ^ 53) (h : UpToOne m e) (he : e' ≤ e) :
    m <<< (e - e').toNat ≤ 2 ^ (-e').toNat := by
  rw [Nat.shiftLeft_eq]
  rcases h with h | ⟨rfl, h⟩
  · calc m * 2 ^ (e - e').toNat ≤ 2 ^ 53 * 2 ^ (e - e').toNat :=
          Nat.mul_le_mul_right _ (Nat.le_of_lt hm)
      _ = 2 ^ (53 + (e - e').toNat) := (Nat.pow_add ..).symm
      _ ≤ 2 ^ (-e').toNat := Nat.pow_le_pow_right (by decide) (by omega)
  · calc m * 2 ^ (-52 - e').toNat ≤ 2 ^ 52 * 2 ^ (-52 - e').toNat := Nat.mul_le_mul_right _ h
      _ = 2 ^ (52 + (-52 - e').toNat) := (Nat.pow_add ..).symm
      _ ≤ 2 ^ (-e').toNat := Nat.pow_le_pow_right (by decide) (by omega)

lemma mantissa_lt {b : BitVec Format.binary64.numBits} {s : Sign} {m : Nat} {e : Int} {h : 0 < m}
    (hb : unpack Format.binary64 b = .finite s m e h) : m < 2 ^ 53 := by
  rcases unpack_cases b with ⟨-, hf⟩ | ⟨-, -, hf⟩
  · rw [hb] at hf
    cases hf
  · exact (hf _ _ _ _ hb).1

def Fraction (y : Float) : Prop :=
  ∃ m e h, y.toModel.unpack = .finite .positive m e h ∧ e < -52

/-- A number up to one is still up to one when a fraction is taken off. -/
lemma sub_le_one {x y : Float} (h0 : 0 ≤ x) (h1 : x ≤ 1) (hy : Fraction y) : x - y ≤ 1 := by
  obtain ⟨m₂, e₂, h₂, hu, he₂⟩ := hy
  rw [le_one_iff] at h1 ⊢
  rw [le_iff, unpack_zero] at h0
  have hsub : (x - y).toModel.unpack = unpack Format.binary64 (pack Format.binary64
      (sub Format.binary64 x.toModel.unpack y.toModel.unpack)) := rfl
  rw [hsub, hu]
  cases hx : x.toModel.unpack with
  | notANumber =>
    rw [hx] at h1
    cases h1
  | infinity s =>
    rw [hx] at h0 h1
    cases s
    · cases h0
    · cases h1
  | zero s => exact pack_le_one (.inl he₂)
  | finite s m₁ e₁ h₁ =>
    rw [hx] at h0 h1
    cases s with
    | negative => cases h0
    | positive =>
      unfold sub decreaseExponent
      dsimp only
      have h1' := shift_le (mantissa_lt hx) (finite_le_one.mp h1) (Int.min_le_left e₁ e₂)
      have h2' := shift_le (mantissa_lt hu) (.inl he₂) (Int.min_le_right e₁ e₂)
      have hpos {m k : Nat} (h : 0 < m) : 0 < m <<< k := by
        rw [Nat.shiftLeft_eq]
        exact Nat.mul_pos h (Nat.two_pow_pos _)
      have h1pos := hpos (k := (e₁ - min e₁ e₂).toNat) h₁
      have h2pos := hpos (k := (e₂ - min e₁ e₂).toNat) h₂
      refine normalize_le_one ?_
      simp only [Sign.apply]
      omega

end Tariff.Decimal
