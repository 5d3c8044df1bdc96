import Tariff.Proofs.Decimal.Expansion
import Tariff.Proofs.Decimal.Shortest
import Tariff.Proofs.Formula.Literal

/-!
Which number is written. Ten digits behind the point are those of the number rounded; where they
are all zeros, but the number is not, it is the shortest decimal that reads back. Either way the
text is the decimal expansion of what is written.
-/

namespace Tariff.Formula

open Tariff.Text Tariff.Decimal

/-- The number that is written for another, without its sign. -/
def writtenMagnitude (b : Binary) : ℚ :=
  if 0 < b.steps 10 then b.steps 10 / 10 ^ 10
  else if b.mantissa = 0 then 0
  else (shortest .up b.mantissa b.exponent).value

variable {x : Float} {b : Binary}

/-! ### Ten digits -/

lemma ne_of_natOfDigits_pos {w f : List Char} (hw : AllDigits w) (hf : AllDigits f)
    (hpos : 0 < natOfDigits (w ++ f)) (b : Binary) {s : String}
    (hs : natOfDigits (s.toList.filter isAsciiDigit) = 0) :
    String.ofList (signOf b ++ (w ++ point f)) ≠ s := by
  rintro rfl
  have hsign : (signOf b).filter isAsciiDigit = [] := by
    unfold signOf
    split_ifs <;> rfl
  rw [String.toList_ofList, List.filter_append, hsign, List.nil_append,
    filter_append_point hw hf] at hs
  omega

/-- A number that ten digits show is written with at most ten. -/
lemma exists_expansion_of_steps_pos (hb : Binary.ofFloat? x = some b) (h : 0 < b.steps 10) :
    ∃ w f, Expansion (b.steps 10 / 10 ^ 10) w f ∧ f.length ≤ 10 ∧
      (literal x).toList = signOf b ++ (w ++ point f) := by
  obtain ⟨w, f, hne, hw, hf, hlen, hzero, hvalue, htrimmed⟩ := exists_trimmed b
  have hexpansion := expansion_dropTail hne hw hf hzero
  rw [hvalue, hlen] at hexpansion
  have hle : (dropTail (· == '0') f).length ≤ f.length := by
    rw [dropTail_eq_rdropWhile]
    exact (List.rdropWhile_prefix _ f).length_le
  have hne' {s : String} := ne_of_natOfDigits_pos hexpansion.digits.1 hexpansion.digits.2
    (hexpansion.natOfDigits_pos (by positivity)) b (s := s)
  refine ⟨w, _, hexpansion, by omega, ?_⟩
  unfold literal
  dsimp only
  rw [toList_fixed 10 hb, htrimmed,
    if_neg (by simp only [not_or]; exact ⟨hne' rfl, hne' rfl, hne' rfl⟩), String.toList_ofList]

/-! ### A number that ten digits do not show -/

lemma literal_of_steps_eq_zero (hb : Binary.ofFloat? x = some b) (h : b.steps 10 = 0) :
    literal x = if x == 0 then "0" else plain.render x := by
  have hfixed : b.fixed 10 = signOf b ++ pointed 10 (b.steps 10) := rfl
  unfold literal
  dsimp only
  rw [toList_fixed 10 hb, hfixed, h, if_pos]
  unfold signOf
  split_ifs <;> decide

lemma beq_zero_iff (hb : Binary.ofFloat? x = some b) : (x == 0) = true ↔ b.mantissa = 0 := by
  have hbeq : (x == 0) = x.toModel.unpack.beq (0 : Float).toModel.unpack := rfl
  rw [hbeq, unpack_zero]
  rcases cases_of_ofFloat? hb with ⟨hm, hu⟩ | ⟨hm, hu⟩ <;> rw [hu]
  · exact iff_of_true rfl hm
  · refine iff_of_false ?_ hm.ne'
    cases b.sign <;> exact Bool.false_ne_true

/-- Digits behind the point that do not end in a zero are an expansion. -/
lemma exists_expansion_of_mod {d : Scaled} (hexponent : d.exponent < 0) (hmod : d.digits % 10 ≠ 0) :
    ∃ w f, Expansion d.value w f ∧ plain.digits d = w ++ point f := by
  obtain ⟨k, hk⟩ := Int.eq_ofNat_of_zero_le (show 0 ≤ -d.exponent by omega)
  obtain ⟨w, f, hne, hw, hf, hlen, hzero, hvalue, hp⟩ := pointed_eq k d.digits
  have htrailing : f.getLast? ≠ some '0' := fun hlast => by
    obtain ⟨init, rfl⟩ := List.getLast?_eq_some_iff.mp hlast
    have hlast : natOfDigits ['0'] = 0 := rfl
    rw [← List.append_assoc, natOfDigits_append, hlast, List.length_singleton] at hvalue
    omega
  refine ⟨w, f, ⟨⟨hw, hf⟩, hne, hzero, htrailing, ?_⟩, ?_⟩
  · have hexponent : d.exponent = -k := by omega
    unfold Scaled.value
    rw [hvalue, hlen, hexponent, zpow_neg, zpow_natCast, div_eq_mul_inv]
  · have hdigits : plain.digits d = plain.positional d := rfl
    have hplaces : (-d.exponent).toNat = k := by omega
    rw [hdigits, ← hp]
    unfold Layout.positional
    rw [if_pos hexponent, hplaces]

/-- The shortest decimal of a number below two thirds has its digits behind the point. -/
lemma exponent_shortest_neg {m : ℕ} {q : ℤ} (hc : Canonical m q) (hlt : (m * 2 ^ q : ℚ) < 2 / 3) :
    (shortest .up m q).exponent < 0 := by
  obtain ⟨hrounds, hmod⟩ := shortest_spec .up hc
  have hone : (1 : ℚ) ≤ (shortest .up m q).digits := by
    exact_mod_cast (show 1 ≤ (shortest .up m q).digits by omega)
  have hvalue : (shortest .up m q).value < 1 := (hrounds.le_mul hc.pos).trans_lt (by linarith)
  have hpow : (10 : ℚ) ^ (shortest .up m q).exponent < 1 :=
    (le_mul_of_one_le_left (by positivity) hone).trans_lt hvalue
  exact (zpow_lt_one_iff_right₀ (by norm_num)).mp hpow

/-- Ten digits do not show what is not larger than half the last of them. -/
lemma steps_eq_zero_iff (b : Binary) : b.steps 10 = 0 ↔ IsNearest 0 (b.magnitude * 10 ^ 10) :=
  ⟨fun h => h ▸ isNearest_steps 10 b, fun h => (isNearest_steps 10 b).unique h⟩

lemma magnitude_le_of_steps (h : b.steps 10 = 0) : b.magnitude ≤ 5 / 10 ^ 11 := by
  have := ((steps_eq_zero_iff b).mp h).upper
  norm_num at this ⊢
  linarith

lemma mantissa_ne_zero_of_steps (h : 0 < b.steps 10) : b.mantissa ≠ 0 := by
  intro hm
  refine h.ne' ((steps_eq_zero_iff b).mpr ?_)
  rw [magnitude_eq_zero_iff.mpr hm, zero_mul]
  exact ⟨by norm_num, by norm_num, fun _ => rfl⟩

/-- **What is written of a finite number is an expansion**, behind a minus if the number is below
zero. -/
theorem exists_expansion_literal (hb : Binary.ofFloat? x = some b) :
    ∃ w f, Expansion (writtenMagnitude b) w f ∧ (b.mantissa = 0 ∨ 0 < b.steps 10 → f.length ≤ 10) ∧
      (literal x).toList = (if b.mantissa = 0 then [] else signOf b) ++ (w ++ point f) := by
  unfold writtenMagnitude
  split_ifs with hsteps hm hm
  · exact absurd hm (mantissa_ne_zero_of_steps hsteps)
  · obtain ⟨w, f, hexpansion, hlen, heq⟩ := exists_expansion_of_steps_pos hb hsteps
    exact ⟨w, f, hexpansion, fun _ => hlen, heq⟩
  · rw [literal_of_steps_eq_zero hb (by omega), if_pos ((beq_zero_iff hb).mpr hm)]
    exact ⟨['0'], [], expansion_zero, fun _ => Nat.zero_le 10, rfl⟩
  · have hc := canonical_of_ofFloat? hb hm
    have hlt := magnitude_le_of_steps (b := b) (by omega)
    obtain ⟨w, f, hexpansion, heq⟩ := exists_expansion_of_mod
      (exponent_shortest_neg hc (hlt.trans_lt (by norm_num))) (shortest_spec .up hc).2
    refine ⟨w, f, hexpansion, fun h => absurd h (not_or.mpr ⟨hm, hsteps⟩), ?_⟩
    rw [literal_of_steps_eq_zero hb (by omega), if_neg (mt (beq_zero_iff hb).mp hm),
      toList_render plain hb, ← heq]
    unfold Layout.finite
    rw [if_neg hm]
    rfl

/-! ### How near -/

lemma writtenMagnitude_eq_zero (hm : b.mantissa = 0) : writtenMagnitude b = 0 := by
  unfold writtenMagnitude
  rw [if_neg (fun h => mantissa_ne_zero_of_steps h hm), if_pos hm]

/-- What ten digits show is written to within half of the last. -/
lemma writtenMagnitude_near (h : b.mantissa = 0 ∨ 0 < b.steps 10) :
    |writtenMagnitude b - b.magnitude| ≤ 5 / 10 ^ 11 := by
  rcases h with hm | hsteps
  · rw [writtenMagnitude_eq_zero hm, magnitude_eq_zero_iff.mpr hm, sub_zero, abs_zero]
    positivity
  · have hnearest := isNearest_steps 10 b
    have hlower := hnearest.lower
    have hupper := hnearest.upper
    unfold writtenMagnitude
    rw [if_pos hsteps, abs_le]
    constructor <;> linarith

lemma roundsTo_writtenMagnitude (hb : Binary.ofFloat? x = some b) (hm : b.mantissa ≠ 0)
    (h : b.steps 10 = 0) : RoundsTo (writtenMagnitude b) b.mantissa b.exponent := by
  unfold writtenMagnitude
  rw [if_neg (by omega), if_neg hm]
  exact (shortest_spec .up (canonical_of_ofFloat? hb hm)).1

/-- Only zero is written as zero. -/
lemma writtenMagnitude_pos (hb : Binary.ofFloat? x = some b) (hm : b.mantissa ≠ 0) :
    0 < writtenMagnitude b := by
  rcases Nat.eq_zero_or_pos (b.steps 10) with hsteps | hsteps
  · exact (roundsTo_writtenMagnitude hb hm hsteps).pos (Nat.pos_of_ne_zero hm)
  · unfold writtenMagnitude
    rw [if_pos hsteps]
    positivity

lemma writtenMagnitude_nonneg (hb : Binary.ofFloat? x = some b) : 0 ≤ writtenMagnitude b := by
  by_cases hm : b.mantissa = 0
  · rw [writtenMagnitude_eq_zero hm]
  · exact (writtenMagnitude_pos hb hm).le

/-! ### Order -/

variable {y : Float} {b' : Binary}

lemma writtenMagnitude_mono_of_steps (hb : Binary.ofFloat? x = some b)
    (hb' : Binary.ofFloat? y = some b') (hsteps : b.steps 10 = 0) (hsteps' : b'.steps 10 = 0)
    (h : b.magnitude ≤ b'.magnitude) : writtenMagnitude b ≤ writtenMagnitude b' := by
  by_cases hm : b.mantissa = 0
  · rw [writtenMagnitude_eq_zero hm]
    exact writtenMagnitude_nonneg hb'
  have hm' : b'.mantissa ≠ 0 := fun hm' => by
    rw [magnitude_eq_zero_iff.mpr hm'] at h
    exact hm (magnitude_eq_zero_iff.mp (le_antisymm h (magnitude_nonneg b)))
  have hc := canonical_of_ofFloat? hb hm
  have hc' := canonical_of_ofFloat? hb' hm'
  rcases h.lt_or_eq with hlt | heq
  · exact (roundsTo_writtenMagnitude hb hm hsteps).le_of_lt
      (roundsTo_writtenMagnitude hb' hm' hsteps') hc hc' hlt
  · obtain ⟨hmantissa, hexponent⟩ :
        b.mantissa = b'.mantissa ∧ b.exponent = b'.exponent := by
      have := hc.cases_of_le hc' heq.le
      have := hc'.cases_of_le hc heq.ge
      omega
    unfold writtenMagnitude
    rw [hsteps, hsteps', hmantissa, hexponent]

/-- **What is written is in order.** -/
lemma writtenMagnitude_mono (hb : Binary.ofFloat? x = some b) (hb' : Binary.ofFloat? y = some b')
    (h : b.magnitude ≤ b'.magnitude) : writtenMagnitude b ≤ writtenMagnitude b' := by
  have hmono : b.steps 10 ≤ b'.steps 10 := (isNearest_steps 10 b).mono (isNearest_steps 10 b')
    (mul_le_mul_of_nonneg_right h (by positivity))
  rcases Nat.eq_zero_or_pos (b'.steps 10) with hsteps' | hsteps'
  · exact writtenMagnitude_mono_of_steps hb hb' (by omega) hsteps' h
  have hwritten' : writtenMagnitude b' = b'.steps 10 / 10 ^ 10 := if_pos hsteps'
  rcases Nat.eq_zero_or_pos (b.steps 10) with hsteps | hsteps
  · by_cases hm : b.mantissa = 0
    · rw [writtenMagnitude_eq_zero hm]
      exact writtenMagnitude_nonneg hb'
    · -- half as large again, what ten digits do not show is still less than a step
      have hone : (1 : ℚ) ≤ b'.steps 10 := by exact_mod_cast hsteps'
      have hle : writtenMagnitude b ≤ 3 / 2 * b.magnitude :=
        (roundsTo_writtenMagnitude hb hm hsteps).le_mul (Nat.pos_of_ne_zero hm)
      have hsmall := magnitude_le_of_steps hsteps
      rw [hwritten']
      linarith
  · have hwritten : writtenMagnitude b = b.steps 10 / 10 ^ 10 := if_pos hsteps
    rw [hwritten, hwritten']
    exact div_le_div_of_nonneg_right (Nat.cast_le.mpr hmono) (by positivity)

-- on either side of half the last digit
example : literal (ofScaled 49 (-12)) = "0.000000000049" ∧
    literal (ofScaled 5 (-11)) = "0.0000000001" := by
  decide +kernel

end Tariff.Formula
