import Tariff.Proofs.Decimal.Largest
import Tariff.Proofs.Decimal.Nearest
import Tariff.Proofs.Json.Numerals
import Tariff.Proofs.Json.Ranged

/-!
Every number that is written is read as a number, if not always as the same. Reading could only fail
for digits that come to more than the largest finite number; the digits of a finite number exceed it
by half a unit, reading by four roundings, and the few numbers so near to the largest that this is
too much are looked at one by one.
-/

namespace Tariff.Json

open Tariff.Decimal (ofScaled natOfDigits Scaled ulp largest)

/-! ### What is taken of the digits -/

lemma mul_pow_le_foldl (n : ℕ) (ds : List Char) :
    n * 10 ^ ds.length ≤ ds.foldl (fun n c => 10 * n + (c.toNat - '0'.toNat)) n := by
  induction ds generalizing n with
  | nil => simp
  | cons d ds ih =>
    calc n * 10 ^ (ds.length + 1) = 10 * n * 10 ^ ds.length := by rw [pow_succ]; ring
      _ ≤ (10 * n + (d.toNat - '0'.toNat)) * 10 ^ ds.length := Nat.mul_le_mul_right _ (by omega)
      _ ≤ _ := ih _

/-- The digits that are left are counted, and count for no more than they are. -/
lemma absorb_le (n : ℕ) (ds : List Char) : (absorb n ds).2 ≤ ds.length ∧
    (absorb n ds).1 * 10 ^ (absorb n ds).2 ≤
      ds.foldl (fun n c => 10 * n + (c.toNat - '0'.toNat)) n := by
  induction ds generalizing n with
  | nil => simp [absorb]
  | cons d ds ih =>
    unfold absorb
    dsimp only
    split_ifs
    · obtain ⟨hlength, hle⟩ := ih (10 * n + (d.toNat - '0'.toNat))
      exact ⟨hlength.trans (Nat.le_succ _), hle⟩
    · exact ⟨le_rfl, mul_pow_le_foldl n (d :: ds)⟩

def Numeral.magnitude (l : Numeral) : ℚ := l.digits * 10 ^ l.scale

lemma Numeral.Says.magnitude_eq {l : Numeral} {d : Scaled} (h : l.Says d) :
    l.magnitude = d.value := by
  obtain ⟨j, hdigits, hscale⟩ := h.value
  unfold Numeral.magnitude Scaled.value
  rw [hdigits, ← hscale, zpow_add₀ (by norm_num), zpow_natCast]
  push_cast
  ring

/-- What is read of a numeral that is short enough before the point: a significand, and a power of
ten for the digits that are left. -/
lemma Numeral.isSome_value?_eq {l : Numeral} (hp : l.IsPointed) {n unread : ℕ}
    (hwhole : absorb 0 l.whole = (natOfDigits l.whole, 0))
    (hread : absorb (natOfDigits l.whole) (l.fraction.getD []) = (n, unread))
    (hunread : unread ≤ (l.fraction.getD []).length) :
    l.value?.isSome = (scaled? n (unread + l.scale)).isSome := by
  obtain ⟨negative, whole, fraction, exponent⟩ := l
  dsimp only at hwhole hread hunread
  unfold Numeral.value?
  dsimp only
  rw [hwhole]
  have hsum (x : ℤ) : ((0 : ℕ) : ℤ) - ((fraction.getD []).length - unread : ℕ) + x =
      unread + (x - (fraction.getD []).length) := by omega
  rcases exponent with - | ⟨_ | _, ds⟩
  · cases fraction with
    | none => simp [Numeral.IsPointed] at hp
    | some f =>
      dsimp only
      rw [hread, Option.isSome_map, hsum]
      rfl
  all_goals
    cases fraction <;>
    · dsimp only
      rw [hread, Option.isSome_map, hsum]
      rfl

/-- A numeral that is short enough before the point is read as a significand of 64 bits times a
power of ten, no more than it says. -/
lemma exists_scaled {l : Numeral} (hp : l.IsPointed) (hs : l.IsShort) : ∃ n e,
    (l.value?.isSome = (scaled? n e).isSome) ∧ n < 2 ^ 64 ∧ (n * 10 ^ e : ℚ) ≤ l.magnitude := by
  have hwhole : absorb 0 l.whole = (natOfDigits l.whole, 0) :=
    absorb_eq (Nat.lt_of_lt_of_le hs (by decide))
  have hlt : (absorb (natOfDigits l.whole) (l.fraction.getD [])).1 < 2 ^ 64 :=
    absorb_lt _ (Nat.lt_of_lt_of_le hs (by decide))
  obtain ⟨hunread, hle⟩ := absorb_le (natOfDigits l.whole) (l.fraction.getD [])
  generalize hread : absorb (natOfDigits l.whole) (l.fraction.getD []) = read at hlt hunread hle
  obtain ⟨n, unread⟩ := read
  refine ⟨n, unread + l.scale, Numeral.isSome_value?_eq hp hwhole hread hunread, hlt, ?_⟩
  have hdigits : n * 10 ^ unread ≤ l.digits := by
    refine hle.trans (le_of_eq ?_)
    unfold Numeral.digits natOfDigits
    rw [List.foldl_append]
  have hcast : (n * 10 ^ unread : ℚ) ≤ l.digits := by exact_mod_cast hdigits
  calc (n * 10 ^ (unread + l.scale) : ℚ) = n * 10 ^ unread * 10 ^ l.scale := by
        rw [zpow_add₀ (by norm_num), zpow_natCast, mul_assoc]
    _ ≤ l.digits * 10 ^ l.scale := mul_le_mul_of_nonneg_right hcast (by positivity)

/-! ### Numbers that are not too large -/

lemma one_le_roundings : (1 : ℚ) ≤ (1 + ulp) ^ 4 :=
  one_le_pow₀ (le_add_of_nonneg_right Decimal.ulp_pos.le)

lemma roundings_nonneg : (0 : ℚ) ≤ (1 + ulp) ^ 4 := zero_le_one.trans one_le_roundings

lemma isFinite_scaled {n k : ℕ} (hlt : n < 2 ^ 64) (hk : k ≤ 308)
    (h : (1 + ulp) ^ 4 * (n * 10 ^ k : ℚ) < largest) :
    (ofScaled n 0 * ofScaled 1 k).isFinite = true := by
  rcases Nat.eq_zero_or_pos n with rfl | hpos
  · obtain ⟨m, e, ⟨⟨hm, hu⟩, -⟩, -⟩ := Decimal.exists_normal_tenPower hk
    have hzero : (ofScaled 0 0).toModel.unpack = .zero .positive := rfl
    have hmul : (ofScaled 0 0 * ofScaled 1 k).isFinite =
        (Float.Model.UnpackedFloat.unpack Float.Model.Format.binary64
          (Float.Model.UnpackedFloat.pack Float.Model.Format.binary64
            (Float.Model.UnpackedFloat.mul Float.Model.Format.binary64
              (ofScaled 0 0).toModel.unpack (ofScaled 1 k).toModel.unpack))).isFinite := rfl
    rw [hmul, hzero, hu]
    exact Decimal.isFinite_pack_zero _
  · exact Decimal.isFinite_mul_tenPower hpos hlt hk h

/-- No power of ten from the 309th on is finite. -/
lemma le_of_lt_largest {n : ℕ} {e : ℤ} (hpos : 0 < n)
    (h : (1 + ulp) ^ 4 * (n * 10 ^ e : ℚ) < largest) : e ≤ 308 := by
  by_contra he
  have hone : (1 : ℚ) ≤ (1 + ulp) ^ 4 * n :=
    one_le_mul_of_one_le_of_one_le one_le_roundings (by exact_mod_cast hpos)
  have hnat : 2 ^ 1024 < 10 ^ 309 := by decide +kernel
  have hcast : ((2 ^ 1024 : ℕ) : ℚ) < (10 ^ 309 : ℕ) := Nat.cast_lt.mpr hnat
  rw [Nat.cast_pow, Nat.cast_pow] at hcast
  have hlt : largest < (10 : ℚ) ^ (309 : ℤ) := Decimal.largest_lt.trans hcast
  have hpow : (10 : ℚ) ^ (309 : ℤ) ≤ 10 ^ e := zpow_le_zpow_right₀ (by norm_num) (by omega)
  have hfinal : (10 : ℚ) ^ e ≤ (1 + ulp) ^ 4 * (n * 10 ^ e) := by
    rw [← mul_assoc]
    exact le_mul_of_one_le_left (by positivity) hone
  exact absurd (hlt.trans_le (hpow.trans hfinal)) (not_lt.mpr h.le)

lemma isSome_scaled? {n : ℕ} {e : ℤ} (hlt : n < 2 ^ 64)
    (h : (1 + ulp) ^ 4 * (n * 10 ^ e : ℚ) < largest) : (scaled? n e).isSome = true := by
  unfold scaled?
  dsimp only
  split_ifs with hneg hhi hfinite hzero
  · rfl
  · rfl
  · obtain ⟨k, rfl⟩ := Int.eq_ofNat_of_zero_le (Int.not_lt.mp hneg)
    rw [zpow_natCast] at h
    exact absurd (isFinite_scaled hlt (by omega) h) hfinite
  · rfl
  · rcases Nat.eq_zero_or_pos n with rfl | hpos
    · exact absurd (by rfl) hzero
    · exact absurd (le_of_lt_largest hpos h) hhi

/-- A finite number is one of the nine largest, or its digits can be read. -/
lemma top_or_lt {m : ℕ} {q : ℤ} (hm : m < 2 ^ 53) (hq : q ≤ 971) :
    (∃ j < 9, m = 2 ^ 53 - 1 - j ∧ q = 971) ∨
      (1 + ulp) ^ 4 * ((m + 1 / 2) * 2 ^ q : ℚ) < largest := by
  rcases lt_or_eq_of_le hq with hq | rfl
  · right
    have hm : (m + 1 / 2 : ℚ) ≤ 2 ^ 53 := by
      have : ((m + 1 : ℕ) : ℚ) ≤ (2 ^ 53 : ℕ) := Nat.cast_le.mpr hm
      push_cast at this
      linarith
    calc (1 + ulp) ^ 4 * ((m + 1 / 2) * 2 ^ q : ℚ)
        ≤ (1 + ulp) ^ 4 * (2 ^ 53 * 2 ^ (970 : ℤ)) := by
          have hpow : (2 : ℚ) ^ q ≤ 2 ^ (970 : ℤ) :=
            zpow_le_zpow_right₀ one_le_two (by omega)
          exact mul_le_mul_of_nonneg_left
            (mul_le_mul hm hpow (by positivity) (by norm_num)) roundings_nonneg
      _ = (1 + ulp) ^ 4 * 2 ^ 52 * 2 ^ (971 : ℤ) := by
          have hsplit : (2 : ℚ) ^ (971 : ℤ) = 2 * 2 ^ (970 : ℤ) := by
            rw [← zpow_one_add₀ two_ne_zero]
            rfl
          rw [hsplit]
          ring
      _ < largest := mul_lt_mul_of_pos_right (by unfold ulp; norm_num) (by positivity)
  · rcases Nat.lt_or_ge m (2 ^ 53 - 9) with hm' | hm'
    · right
      have hm : (m + 1 / 2 : ℚ) ≤ 2 ^ 53 - 19 / 2 := by
        have : ((m + 10 : ℕ) : ℚ) ≤ (2 ^ 53 : ℕ) := Nat.cast_le.mpr (by omega)
        push_cast at this
        linarith
      calc (1 + ulp) ^ 4 * ((m + 1 / 2) * 2 ^ (971 : ℤ) : ℚ)
          = (1 + ulp) ^ 4 * (m + 1 / 2) * 2 ^ (971 : ℤ) := (mul_assoc _ _ _).symm
        _ ≤ (1 + ulp) ^ 4 * (2 ^ 53 - 19 / 2) * 2 ^ (971 : ℤ) :=
            mul_le_mul_of_nonneg_right (mul_le_mul_of_nonneg_left hm roundings_nonneg)
              (by positivity)
        _ < largest := mul_lt_mul_of_pos_right (by unfold ulp; norm_num) (by positivity)
    · exact .inl ⟨2 ^ 53 - 1 - m, by omega, by omega, rfl⟩

lemma isSome_of_top : ∀ j < 9, ∀ negative, ((takeNumeral (numberLayout.finite
    ⟨negative, 2 ^ 53 - 1 - j, 971⟩)).bind (·.1.value?)).isSome = true := by
  decide +kernel

lemma bounds_of_ofFloat? {x : Float} {b : Decimal.Binary} (h : Decimal.Binary.ofFloat? x = some b) :
    b.mantissa < 2 ^ 53 ∧ b.exponent ≤ 971 := by
  unfold Decimal.Binary.ofFloat? at h
  split at h
  next s m e hm hu =>
    cases h
    rcases Decimal.unpack_cases x.toBits.toBitVec with ⟨-, hf⟩ | ⟨-, -, hf⟩
    · rw [hu] at hf
      cases hf
    · exact hf s m e hm hu
  next =>
    cases h
    dsimp only
    omega
  next => cases h
  next => cases h

/-- A finite number is written as a decimal that exceeds it by no more than half a unit. -/
lemma value_decimalOf_le (b : Decimal.Binary) :
    (decimalOf b).value ≤ (b.mantissa + 1 / 2) * 2 ^ b.exponent := by
  unfold decimalOf
  split_ifs
  · unfold Scaled.value
    rw [Nat.cast_zero, zero_mul]
    positivity
  · exact Decimal.value_shortest_le _ _ _

/-- The digits of a number that is not one of the largest can be read. -/
lemma Numeral.Says.isSome_value? {l : Numeral} {b : Decimal.Binary} (hl : l.Says (decimalOf b))
    (hs : l.IsShort)
    (h : (1 + ulp) ^ 4 * ((b.mantissa + 1 / 2) * 2 ^ b.exponent : ℚ) < largest) :
    l.value?.isSome = true := by
  obtain ⟨n, e, hsome, hlt, hle⟩ := exists_scaled hl.pointed hs
  have hmagnitude : l.magnitude ≤ (b.mantissa + 1 / 2) * 2 ^ b.exponent :=
    hl.magnitude_eq.trans_le (value_decimalOf_le b)
  rw [hsome]
  exact isSome_scaled? hlt
    (lt_of_le_of_lt (mul_le_mul_of_nonneg_left (hle.trans hmagnitude) roundings_nonneg) h)

/-- **Every number that is written is read as a number.** -/
theorem exists_reread? {n : Number} (hr : n.InRange) (hw : n.isWritten = true) :
    ∃ m, n.reread? = some m := by
  cases n with
  | integer n => exact ⟨_, reread?_integer hr.1 hr.2⟩
  | float x =>
    obtain ⟨b, hb, hrender⟩ := exists_render_eq hw
    obtain ⟨hm, hq⟩ := bounds_of_ofFloat? hb
    rw [← Option.isSome_iff_exists]
    unfold Number.reread?
    rw [hrender]
    rcases top_or_lt hm hq with ⟨j, hj, hmantissa, hexponent⟩ | hlt
    · obtain ⟨negative, m, q⟩ := b
      dsimp only at hmantissa hexponent
      rw [hmantissa, hexponent]
      exact isSome_of_top j hj negative
    · obtain ⟨l, hl, hshort, htext⟩ := exists_numeral_finite b
      have htake := takeNumeral_text hl.proper delimits_nil
      rw [List.append_nil] at htake
      rw [htext, htake]
      exact hl.isSome_value? hshort hlt

end Tariff.Json
