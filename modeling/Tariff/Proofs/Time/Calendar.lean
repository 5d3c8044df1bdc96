import Mathlib.Tactic.Common
import Mathlib.Tactic.IntervalCases
import Tariff.Time.Instant

/-!
Dates and days. The date a number of days after the start of 1970 is a day of the calendar, and it
is that number of days after the start of 1970.

Years are counted from March within a cycle of 400. The day of a cycle falls apart into centuries,
spans of four years, years and days; the last of each may be a day longer, and the closed form for
the year is checked on these parts.
-/

namespace Tariff.Instant

def daysBefore (y : Nat) : Nat := 365 * y + y / 4 - y / 100

def yearOf (e : Nat) : Nat := (e - e / 1460 + e / 36524 - e / 146096) / 365

/-- A day of a cycle by its century, its span of four years, its year and its day of the year. -/
lemma exists_parts {e : Nat} (he : e < 146097) : ∃ c q y r,
    c < 4 ∧ q < 25 ∧ y < 4 ∧ e = 36524 * c + 1461 * q + 365 * y + r ∧
      1461 * q + 365 * y + r < 36524 + c / 3 ∧ r < 365 + y / 3 := by
  obtain ⟨c, x, hc, hx, rfl⟩ : ∃ c x, c < 4 ∧ x < 36524 + c / 3 ∧ e = 36524 * c + x :=
    ⟨min (e / 36524) 3, e - 36524 * min (e / 36524) 3, by omega, by omega, by omega⟩
  obtain ⟨q, w, hq, hw, rfl⟩ : ∃ q w, q < 25 ∧ w < 1461 ∧ x = 1461 * q + w :=
    ⟨x / 1461, x % 1461, by omega, by omega, by omega⟩
  obtain ⟨y, r, hy, hr, rfl⟩ : ∃ y r, y < 4 ∧ r < 365 + y / 3 ∧ w = 365 * y + r :=
    ⟨min (w / 365) 3, w - 365 * min (w / 365) 3, by omega, by omega, by omega⟩
  exact ⟨c, q, y, r, hc, hq, hy, by omega, by omega, hr⟩

lemma yearOf_parts {c q y r : Nat} (hc : c < 4) (hq : q < 25) (hy : y < 4)
    (h : 1461 * q + 365 * y + r < 36524 + c / 3) (hr : r < 365 + y / 3) :
    yearOf (36524 * c + 1461 * q + 365 * y + r) = 100 * c + 4 * q + y := by
  unfold yearOf
  interval_cases c <;> interval_cases y <;> omega

/-- A day lies in its year, and behind the 365th only if the year ends in a leap day. -/
lemma yearOf_spec {e : Nat} (he : e < 146097) :
    yearOf e < 400 ∧ daysBefore (yearOf e) ≤ e ∧ e - daysBefore (yearOf e) ≤ 365 ∧
      (e - daysBefore (yearOf e) = 365 → (yearOf e + 1) % 4 = 0 ∧
        ((yearOf e + 1) % 100 ≠ 0 ∨ yearOf e = 399)) := by
  obtain ⟨c, q, y, r, hc, hq, hy, rfl, h, hr⟩ := exists_parts he
  have hbefore : daysBefore (100 * c + 4 * q + y) = 36524 * c + 1461 * q + 365 * y := by
    have h4 : (100 * c + 4 * q + y) / 4 = 25 * c + q := by omega
    have h100 : (100 * c + 4 * q + y) / 100 = c := by omega
    unfold daysBefore
    rw [h4, h100]
    omega
  rw [yearOf_parts hc hq hy h hr, hbefore, Nat.add_sub_cancel_left]
  refine ⟨by omega, by omega, by omega, fun hlast => ?_⟩
  have hy : y = 3 := by omega
  subst hy
  by_cases hq : q = 24
  · have hc : c = 3 := by omega
    exact ⟨by omega, .inr (by omega)⟩
  · exact ⟨by omega, .inl (by omega)⟩

/-! ### Months and days -/

/-- The month of a day of the year, counted from March. -/
def monthOf (r : Nat) : Nat := (5 * r + 2) / 153

def dayOf (r : Nat) : Nat := r - (153 * monthOf r + 2) / 5 + 1

lemma monthOf_spec {r : Nat} (hr : r ≤ 365) :
    monthOf r < 12 ∧ (153 * monthOf r + 2) / 5 ≤ r ∧
      dayOf r ≤ (if monthOf r = 11 then 28 + r / 365
        else if monthOf r = 1 ∨ monthOf r = 3 ∨ monthOf r = 6 ∨ monthOf r = 8 then 30 else 31) := by
  have hall : ∀ r < 366, monthOf r < 12 ∧ (153 * monthOf r + 2) / 5 ≤ r ∧
      dayOf r ≤ (if monthOf r = 11 then 28 + r / 365
        else if monthOf r = 1 ∨ monthOf r = 3 ∨ monthOf r = 6 ∨ monthOf r = 8 then 30 else 31) := by
    decide +kernel
  exact hall r (by omega)

/-! ### Dates -/

lemma ofDays_eq (n : Int) :
    Date.ofDays n =
      let e := ((n + 719468) % 146097).toNat
      let y := yearOf e
      let r := e - daysBefore y
      let month := if monthOf r < 10 then monthOf r + 3 else monthOf r - 9
      ⟨y + (n + 719468) / 146097 * 400 + (if month ≤ 2 then 1 else 0), month, dayOf r⟩ := rfl

/-- **The date of a day** is that many days after the start of 1970. -/
theorem days_ofDays (n : Int) : (Date.ofDays n).days = n := by
  rw [ofDays_eq]
  dsimp only
  have he : ((n + 719468) % 146097).toNat < 146097 := by omega
  have hn : n = ((n + 719468) % 146097).toNat + (n + 719468) / 146097 * 146097 - 719468 := by omega
  generalize (n + 719468) / 146097 = era at hn ⊢
  generalize ((n + 719468) % 146097).toNat = e at he hn ⊢
  obtain ⟨hy, hle, hr, -⟩ := yearOf_spec he
  obtain ⟨hm, hmr, -⟩ := monthOf_spec hr
  generalize yearOf e = y at *
  have hbefore : e = daysBefore y + (e - daysBefore y) := by omega
  generalize e - daysBefore y = r at *
  have hY (Y : Int) (hY : Y = y + era * 400) :
      365 * Y + Y / 4 - Y / 100 + Y / 400 = daysBefore y + era * 146097 := by
    have h4 : Y / 4 = (y / 4 : Nat) + 100 * era := by omega
    have h100 : Y / 100 = (y / 100 : Nat) + 4 * era := by omega
    have h400 : Y / 400 = era := by omega
    unfold daysBefore
    rw [h4, h100, h400]
    omega
  unfold Date.days dayOf
  dsimp only
  -- the year of the calendar begins with the tenth month of the year from March
  by_cases hten : monthOf r < 10
  · rw [if_pos hten, if_neg (by omega), if_neg (by omega), if_neg (by omega), hY _ (by omega)]
    omega
  · rw [if_neg hten, if_pos (by omega), if_pos (by omega), if_pos (by omega), hY _ (by omega)]
    omega

lemma le_daysInMonth {y r : Nat} (era : Int) (hr : r ≤ 365)
    (hlast : r = 365 → (y + 1) % 4 = 0 ∧ ((y + 1) % 100 ≠ 0 ∨ y = 399)) :
    let month := if monthOf r < 10 then monthOf r + 3 else monthOf r - 9
    dayOf r ≤ daysInMonth (y + era * 400 + (if month ≤ 2 then 1 else 0)) month := by
  obtain ⟨hm, -, hday⟩ := monthOf_spec hr
  dsimp only
  generalize monthOf r = m at *
  refine hday.trans ?_
  by_cases hfeb : m = 11
  · subst hfeb
    have hone : r / 365 ≤ 1 := by omega
    by_cases hr365 : r = 365
    · obtain ⟨h4, h100⟩ := hlast hr365
      have hleap : isLeapYear (y + era * 400 + 1) = true := by
        unfold isLeapYear
        simp
        omega
      simp [daysInMonth, hleap, hr365]
    · have hzero : r / 365 = 0 := by omega
      simp only [daysInMonth, hzero]
      split_ifs <;> omega
  · have hm : m < 11 := by omega
    rw [if_neg hfeb]
    interval_cases m <;> simp [daysInMonth]

theorem isValid_ofDays {n : Int} (h : inRange (Date.ofDays n).year = true) :
    (Date.ofDays n).isValid = true := by
  rw [ofDays_eq] at h ⊢
  dsimp only at h ⊢
  have he : ((n + 719468) % 146097).toNat < 146097 := by omega
  generalize ((n + 719468) % 146097).toNat = e at he h ⊢
  generalize (n + 719468) / 146097 = era at h ⊢
  obtain ⟨-, -, hr, hlast⟩ := yearOf_spec he
  obtain ⟨hm, -, -⟩ := monthOf_spec hr
  have hle := le_daysInMonth era hr hlast
  dsimp only at hle
  have hone : 1 ≤ dayOf (e - daysBefore (yearOf e)) := by unfold dayOf; omega
  unfold Date.isValid
  simp only [h, Bool.true_and, Bool.and_eq_true, decide_eq_true_eq]
  refine ⟨⟨⟨?_, ?_⟩, hone⟩, hle⟩
  · split_ifs <;> omega
  · split_ifs <;> omega

end Tariff.Instant
