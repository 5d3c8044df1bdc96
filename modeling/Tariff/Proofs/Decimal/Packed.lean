import Mathlib.Algebra.Group.Nat.Defs
import Mathlib.Tactic.Common
import Tariff.Decimal.Binary

/-!
Finite numbers as they are packed. The mantissa has all 53 places, but for numbers with the least
exponent, and nothing is lost on the way from mantissa and exponent to the bits, nor back.
-/

namespace Tariff.Decimal

open Float.Model (UnpackedFloat Format)
open Float.Model.UnpackedFloat

/-- The mantissa and the exponent of a finite number as they are packed: all 53 places, but for the
least exponent. -/
structure Canonical (m : Nat) (q : Int) : Prop where
  pos : 0 < m
  lt : m < 2 ^ 53
  least : -1074 ≤ q
  greatest : q ≤ 971
  full : -1074 < q → 2 ^ 52 ≤ m

variable {s : Sign} {m : Nat} {q : Int} {h : 0 < m}

lemma finite_congr {s' : Sign} {m' : Nat} {q' : Int} {h' : 0 < m'} (hs : s = s') (hm : m = m')
    (hq : q = q') : UnpackedFloat.finite s m q h = .finite s' m' q' h' := by
  subst hs hm hq
  rfl

/-! ### Fields -/

lemma toBitVec_ofBitVec (b : BitVec 1) : (Sign.ofBitVec b).toBitVec = b := by
  revert b
  decide

lemma packComponents_unpack (b : BitVec Format.binary64.numBits) :
    packComponents Format.binary64 (Sign.ofBitVec (unpackSign b)) (unpackExponent b)
      (unpackMantissa b) = b := by
  have hhigh : b.extractLsb' 63 1 ++ b.extractLsb' 52 11 = b.extractLsb' 52 12 :=
    BitVec.extractLsb'_append_extractLsb'_eq_extractLsb' rfl
  have hall : b.extractLsb' 52 12 ++ b.extractLsb' 0 52 = b.extractLsb' 0 64 :=
    BitVec.extractLsb'_append_extractLsb'_eq_extractLsb' rfl
  unfold packComponents
  rw [toBitVec_ofBitVec]
  change b.extractLsb' 63 1 ++ b.extractLsb' 52 11 ++ b.extractLsb' 0 52 = b
  rw [hhigh, hall]
  exact BitVec.extractLsb'_eq_self

lemma toNat_implicit (b : BitVec 52) : (1#1 ++ b).toNat = 2 ^ 52 + b.toNat := by
  rw [BitVec.toNat_append, Nat.shiftLeft_eq, Nat.or_comm]
  change b.toNat ||| 2 ^ 52 = _
  rw [Nat.or_two_pow_eq_add_of_lt b.isLt]
  omega

lemma unpack_eq_finite {b : BitVec Format.binary64.numBits}
    (hb : unpack Format.binary64 b = .finite s m q h) : s = Sign.ofBitVec (unpackSign b) ∧
      unpackExponent b ≠ -1#_ ∧
      (unpackExponent b = 0#_ ∧ m = (unpackMantissa b).toNat ∧ q = -1074 ∨
        unpackExponent b ≠ 0#_ ∧ m = 2 ^ 52 + (unpackMantissa b).toNat ∧
          q = (unpackExponent b).toNat - 1075) := by
  have hbias : Format.binary64.exponentBias = 1023 := rfl
  unfold unpack at hb
  dsimp only at hb
  rw [hbias] at hb
  by_cases hones : unpackExponent b = -1#_
  · rw [if_pos hones] at hb
    by_cases h0 : unpackMantissa b = 0#_
    · rw [if_pos h0] at hb
      cases hb
    · rw [if_neg h0] at hb
      cases hb
  · rw [if_neg hones] at hb
    by_cases hzero : unpackExponent b = 0#_
    · rw [if_pos hzero] at hb
      by_cases h0 : unpackMantissa b = 0#_
      · rw [dif_pos h0] at hb
        cases hb
      · rw [dif_neg h0] at hb
        cases hb
        exact ⟨rfl, hones, .inl ⟨hzero, rfl, by rw [hzero]; rfl⟩⟩
    · rw [if_neg hzero] at hb
      cases hb
      exact ⟨rfl, hones, .inr ⟨hzero, toNat_implicit _, by omega⟩⟩

lemma canonical_of_unpack {b : BitVec Format.binary64.numBits}
    (hb : unpack Format.binary64 b = .finite s m q h) : Canonical m q := by
  obtain ⟨-, hones, hfields⟩ := unpack_eq_finite hb
  have hm : (@unpackMantissa Format.binary64 b).toNat < 2 ^ 52 := BitVec.isLt _
  have hx : (@unpackExponent Format.binary64 b).toNat < 2 ^ 11 := BitVec.isLt _
  have hx' : (@unpackExponent Format.binary64 b).toNat ≠ 2047 :=
    fun hc => hones (BitVec.eq_of_toNat_eq hc)
  rcases hfields with ⟨-, rfl, rfl⟩ | ⟨hzero, rfl, rfl⟩
  · exact ⟨h, by omega, by omega, by omega, by omega⟩
  · have hpos : (@unpackExponent Format.binary64 b).toNat ≠ 0 :=
      fun hc => hzero (BitVec.eq_of_toNat_eq hc)
    exact ⟨h, by omega, by omega, by omega, by omega⟩

/-- How the places of a mantissa tell which numbers are packed without the implicit bit. -/
lemma Canonical.log2_eq_iff (hc : Canonical m q) : m.log2 + 1 = 53 ↔ 2 ^ 52 ≤ m := by
  have hm : m ≠ 0 := Nat.pos_iff_ne_zero.mp hc.pos
  have hlt := (Nat.log2_lt hm).mpr hc.lt
  have hle := Nat.le_log2 hm (k := 52)
  omega

/-- The fields of a packed number. -/
lemma Canonical.pack_eq (hc : Canonical m q) (s : Sign) : pack Format.binary64 (.finite s m q h) =
    packComponents Format.binary64 s
      (if 2 ^ 52 ≤ m then BitVec.ofNat 11 (q + 1075).toNat else 0#11) (BitVec.ofNat 52 m) := by
  have hbias : Format.binary64.exponentBias = 1023 := rfl
  have hplaces : Format.binary64.mantissaBits = 53 := rfl
  have hgreatest := hc.greatest
  have hfield : (q + (1023 : Nat) + (52 : Nat)).toNat = (q + 1075).toNat := by omega
  unfold pack
  dsimp only
  rw [hbias, hplaces, hfield, if_neg (by omega)]
  simp only [hc.log2_eq_iff]
  split_ifs <;> rfl

/-! ### Packing and unpacking -/

/-- **Nothing is lost when a finite number is unpacked.** -/
lemma pack_unpack {b : BitVec Format.binary64.numBits}
    (hb : unpack Format.binary64 b = .finite s m q h) :
    pack Format.binary64 (.finite s m q h) = b := by
  obtain ⟨rfl, -, hfields⟩ := unpack_eq_finite hb
  have hm : (@unpackMantissa Format.binary64 b).toNat < 2 ^ 52 := BitVec.isLt _
  rw [(canonical_of_unpack hb).pack_eq]
  conv_rhs => rw [← packComponents_unpack b]
  rcases hfields with ⟨hzero, rfl, -⟩ | ⟨-, rfl, rfl⟩
  · rw [if_neg (by omega), hzero, BitVec.ofNat_toNat, BitVec.setWidth_eq]
  · have hexponent : ((@unpackExponent Format.binary64 b).toNat - 1075 + 1075 : Int).toNat =
        (@unpackExponent Format.binary64 b).toNat := by omega
    have hmantissa : BitVec.ofNat 52 (2 ^ 52 + (@unpackMantissa Format.binary64 b).toNat) =
        unpackMantissa b := BitVec.eq_of_toNat_eq (by rw [BitVec.toNat_ofNat]; omega)
    rw [if_pos (by omega), hexponent, hmantissa, BitVec.ofNat_toNat, BitVec.setWidth_eq]

lemma unpackSign_packComponents (s : Sign) (x : BitVec 11) (y : BitVec 52) :
    Sign.ofBitVec (unpackSign (packComponents Format.binary64 s x y)) = s := by
  have hsign : unpackSign (packComponents Format.binary64 s x y) = s.toBitVec := by
    change (s.toBitVec ++ x ++ y).extractLsb' 63 1 = s.toBitVec
    rw [BitVec.extractLsb'_append_eq_of_le (by decide),
      BitVec.extractLsb'_append_eq_of_le (by decide)]
    exact BitVec.extractLsb'_eq_self
  rw [hsign]
  cases s <;> rfl

/-- **Nothing is lost when a finite number is packed.** -/
lemma Canonical.unpack_pack (hc : Canonical m q) (s : Sign) :
    unpack Format.binary64 (pack Format.binary64 (.finite s m q h)) = .finite s m q h := by
  have hbias : Format.binary64.exponentBias = 1023 := rfl
  have hlt := hc.lt
  have hleast := hc.least
  have hgreatest := hc.greatest
  rw [hc.pack_eq]
  unfold unpack
  dsimp only
  rw [hbias, unpackExponent_packComponents]
  have hmantissa : (BitVec.ofNat 52 m).toNat = m % 2 ^ 52 := BitVec.toNat_ofNat m 52
  by_cases hm : 2 ^ 52 ≤ m
  · -- the exponent field is neither that of the infinities nor that of zero
    have hfield : (BitVec.ofNat 11 (q + 1075).toNat).toNat = (q + 1075).toNat := by
      rw [BitVec.toNat_ofNat]
      omega
    have hones : BitVec.ofNat 11 (q + 1075).toNat ≠ -1#11 := fun hx => by
      rw [hx] at hfield
      change 2047 = _ at hfield
      omega
    have hzero : BitVec.ofNat 11 (q + 1075).toNat ≠ 0#11 := fun hx => by
      rw [hx] at hfield
      change 0 = _ at hfield
      omega
    rw [if_pos hm, if_neg hones, if_neg hzero]
    refine finite_congr (unpackSign_packComponents s _ _) ?_ ?_
    · rw [unpackMantissa_packComponents, toNat_implicit, hmantissa]
      omega
    · rw [hfield]
      omega
  · have hpos := hc.pos
    have hzero : unpackMantissa (packComponents Format.binary64 s 0#11 (BitVec.ofNat 52 m)) ≠
        0#52 := by
      rw [unpackMantissa_packComponents]
      intro hx
      rw [hx] at hmantissa
      change 0 = _ at hmantissa
      omega
    have hsubnormal : (0#11 : BitVec 11) ≠ -1#11 := by decide
    have hq : q = -1074 := by
      by_contra hne
      exact hm (hc.full (by omega))
    rw [if_neg hm, if_neg hsubnormal, if_pos rfl, dif_neg hzero]
    refine finite_congr (unpackSign_packComponents s _ _) ?_ ?_
    · rw [unpackMantissa_packComponents, hmantissa]
      omega
    · rw [hq]
      rfl

/-! ### Numbers -/

lemma eq_ofModel_pack {x : Float} (hx : x.toModel.unpack = .finite s m q h) :
    x = Float.ofModel (Float.Model.pack (.finite s m q h)) := by
  obtain ⟨⟨bits, valid⟩⟩ := x
  have hpack : UInt64.ofBitVec (pack Format.binary64 (.finite s m q h)) = bits :=
    congrArg UInt64.ofBitVec (pack_unpack hx)
  subst hpack
  rfl

lemma eq_neg_ofModel_pack {x : Float} (hx : x.toModel.unpack = .finite .negative m q h) :
    x = -Float.ofModel (Float.Model.pack (.finite .positive m q h)) := by
  have hneg : -Float.ofModel (Float.Model.pack (.finite .positive m q h)) =
      Float.ofModel (Float.Model.pack
        (unpack Format.binary64 (pack Format.binary64 (.finite .positive m q h))).neg) := rfl
  rw [hneg, (canonical_of_unpack hx).unpack_pack]
  exact eq_ofModel_pack hx

/-- The sign of a number as it is packed. -/
def Binary.sign (b : Binary) : Sign := if b.negative then .negative else .positive

lemma cases_of_ofFloat? {x : Float} {b : Binary} (hb : Binary.ofFloat? x = some b) :
    b.mantissa = 0 ∧ x.toModel.unpack = .zero b.sign ∨
      ∃ h, x.toModel.unpack = .finite b.sign b.mantissa b.exponent h := by
  have hx : unpack Format.binary64 x.toBits.toBitVec = x.toModel.unpack := rfl
  unfold Binary.ofFloat? at hb
  rw [hx] at hb
  cases hu : x.toModel.unpack with
  | notANumber | infinity => rw [hu] at hb; cases hb
  | zero s =>
    rw [hu] at hb
    cases hb
    cases s <;> exact .inl ⟨rfl, rfl⟩
  | finite s m q h =>
    rw [hu] at hb
    cases hb
    cases s <;> exact .inr ⟨h, rfl⟩

lemma canonical_of_ofFloat? {x : Float} {b : Binary} (hb : Binary.ofFloat? x = some b)
    (hm : b.mantissa ≠ 0) : Canonical b.mantissa b.exponent := by
  rcases cases_of_ofFloat? hb with ⟨h, -⟩ | ⟨_, hu⟩
  · exact absurd h hm
  · exact canonical_of_unpack hu

end Tariff.Decimal
