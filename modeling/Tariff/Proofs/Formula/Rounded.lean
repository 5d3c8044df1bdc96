import Tariff.Proofs.Decimal.Rounding
import Tariff.Proofs.Formula.Written

/-!
What is written of a number that a few roundings have moved off a decimal. Ten digits behind the
point do not show so small an error, so what is written is the expansion of the decimal.
-/

namespace Tariff.Formula

open Tariff.Decimal

/-- Three roundings move a number by less than one part in `2 ^ 50`. -/
lemma near_of_within {v x : ℚ} (h : Within 3 v x) (hx : 0 ≤ x) :
    x - v ≤ x / 2 ^ 50 ∧ v - x ≤ x / 2 ^ 50 := by
  have hlo : 1 - 1 / 2 ^ 50 ≤ (1 - ulp) ^ 3 := by unfold ulp; norm_num
  have hhi : (1 + ulp) ^ 3 ≤ 1 + 1 / 2 ^ 50 := by unfold ulp; norm_num
  have hlo := (mul_le_mul_of_nonneg_right hlo hx).trans h.1
  have hhi := h.2.trans (mul_le_mul_of_nonneg_right hhi hx)
  constructor <;> linarith

variable {x : Float} {m n : ℕ} {e : ℤ}

lemma steps_of_within (h : Within 3 (m * 2 ^ e) (n / 10 ^ 10)) (hn : n < 2 ^ 49) :
    (⟨false, m, e⟩ : Binary).steps 10 = n := by
  have hnearest := isNearest_steps 10 ⟨false, m, e⟩
  obtain ⟨hlo, hhi⟩ := near_of_within h (by positivity)
  have hn' : (n : ℚ) < 2 ^ 49 := by exact_mod_cast hn
  have hlower : (n : ℚ) - 1 / 2 < m * 2 ^ e * 10 ^ 10 := by linarith
  have hupper : (m * 2 ^ e * 10 ^ 10 : ℚ) < n + 1 / 2 := by linarith
  exact hnearest.unique ⟨hlower.le, hupper.le, fun htie => htie.elim
    (fun h => absurd h hlower.ne') fun h => absurd h hupper.ne⟩

lemma ofFloat?_of_normal (h : Normal x m e) : Binary.ofFloat? x = some ⟨false, m, e⟩ := by
  obtain ⟨⟨hm, hu⟩, -⟩ := h
  have hx : Float.Model.UnpackedFloat.unpack Float.Model.Format.binary64 x.toBits.toBitVec =
      x.toModel.unpack := rfl
  unfold Binary.ofFloat?
  rw [hx, hu]
  rfl

/-- **No noise is written**: up to three roundings off a decimal of ten digits behind the point, a
number is written as the expansion of that decimal. -/
theorem isExpansion_literal (h : Normal x m e) (hwithin : Within 3 (m * 2 ^ e) (n / 10 ^ 10))
    (hpos : 0 < n) (hn : n < 2 ^ 49) : IsExpansion (n / 10 ^ 10) (literal x).toList := by
  have hsteps := steps_of_within hwithin hn
  obtain ⟨w, f, hexpansion, -, htext⟩ :=
    exists_expansion_of_steps_pos (ofFloat?_of_normal h) (by rw [hsteps]; exact hpos)
  rw [hsteps] at hexpansion
  exact ⟨w, f, hexpansion, htext⟩

end Tariff.Formula
