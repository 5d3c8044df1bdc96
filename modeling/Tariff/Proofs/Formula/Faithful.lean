import Tariff.Proofs.Decimal.Reading
import Tariff.Proofs.Formula.Admitted
import Tariff.Proofs.Formula.Sum
import Tariff.Proofs.Formula.Written
import Tariff.Proofs.Rate.Exact

/-!
What is written says the number. The text of a finite number is a decimal expansion, of a number so
near that ten digits show no difference, or of one that is read back as the number itself; the
larger number has the larger text, and a number that is not negative is one token of a formula.
-/

namespace Tariff.Formula

open Tariff.Text Tariff.Decimal
open Tariff.Rate (decimals decimals_append_point exactValue)

/-! ### Values -/

def signed (negative : Bool) (v : ℚ) : ℚ := if negative then -v else v

/-- The value of a finite number. -/
def valueOf (x : Float) : ℚ :=
  match Binary.ofFloat? x with
  | some b => signed b.negative b.magnitude
  | none => 0

/-- The number that a text says, with the minus that may stand before it. -/
def denoted (s : String) : ℚ := signed (s.toList.head? == some '-') (exactValue s.toList)

/-- A number that is not zero but rounds to zero at ten digits. -/
def Vanishes (x : Float) : Prop := valueOf x ≠ 0 ∧ IsNearest 0 (|valueOf x| * 10 ^ 10)

lemma abs_signed (n : Bool) (v : ℚ) : |signed n v| = |v| := by
  cases n
  · rfl
  · exact abs_neg v

lemma signed_sub (n : Bool) (v w : ℚ) : signed n v - signed n w = signed n (v - w) := by
  cases n
  · rfl
  · exact (neg_sub' v w).symm

lemma signed_eq_zero_iff {n : Bool} {v : ℚ} : signed n v = 0 ↔ v = 0 := by
  cases n
  · exact Iff.rfl
  · exact neg_eq_zero

lemma signed_neg_iff {n : Bool} {v : ℚ} (hv : 0 ≤ v) : signed n v < 0 ↔ n = true ∧ v ≠ 0 := by
  cases n
  · exact iff_of_false (not_lt.mpr hv) (fun h => Bool.false_ne_true h.1)
  · exact neg_lt_zero.trans ⟨fun h => ⟨rfl, h.ne'⟩, fun h => lt_of_le_of_ne hv h.2.symm⟩

variable {x : Float} {b : Binary}

lemma valueOf_eq (hb : Binary.ofFloat? x = some b) : valueOf x = signed b.negative b.magnitude := by
  unfold valueOf
  rw [hb]

lemma valueOf_neg_iff (hb : Binary.ofFloat? x = some b) :
    valueOf x < 0 ↔ b.negative = true ∧ b.mantissa ≠ 0 := by
  rw [valueOf_eq hb, signed_neg_iff (magnitude_nonneg b), ne_eq, magnitude_eq_zero_iff]

lemma vanishes_iff (hb : Binary.ofFloat? x = some b) :
    Vanishes x ↔ b.mantissa ≠ 0 ∧ b.steps 10 = 0 := by
  unfold Vanishes
  rw [valueOf_eq hb, abs_signed, abs_of_nonneg (magnitude_nonneg b), ← steps_eq_zero_iff, ne_eq,
    signed_eq_zero_iff, magnitude_eq_zero_iff]

/-! ### Texts -/

lemma isDecimal_of_expansion {v : ℚ} {w f : List Char} (h : Expansion v w f) :
    IsDecimal (w ++ point f) := ⟨w, f, h.whole_ne_nil, h.digits.1, h.digits.2, rfl⟩

lemma exactValue_of_expansion {v : ℚ} {w f sign : List Char} (h : Expansion v w f)
    (hsign : IsSign sign) : exactValue (sign ++ (w ++ point f)) = v ∧
      decimals (sign ++ (w ++ point f)) = f := by
  have hdot : '.' ∉ sign ++ w := fun hdot => by
    rcases List.mem_append.mp hdot with hdot | hdot
    · rcases hsign with rfl | rfl <;> simp at hdot
    · exact absurd (h.digits.1 _ hdot) (by decide)
  have hdecimals : decimals (sign ++ (w ++ point f)) = f := by
    rw [← List.append_assoc, decimals_append_point hdot]
  have hdigits : (sign ++ (w ++ point f)).filter isAsciiDigit = w ++ f := by
    have hnone : sign.filter isAsciiDigit = [] := by rcases hsign with rfl | rfl <;> rfl
    rw [List.filter_append, hnone, filter_append_point h.digits.1 h.digits.2, List.nil_append]
  refine ⟨?_, hdecimals⟩
  unfold exactValue
  rw [hdigits, hdecimals]
  exact h.value.symm

lemma exists_text (hb : Binary.ofFloat? x = some b) :
    ∃ w f, Expansion (writtenMagnitude b) w f ∧
      (b.mantissa = 0 ∨ 0 < b.steps 10 → f.length ≤ 10) ∧
      (literal x).toList = (if valueOf x < 0 then ['-'] else []) ++ (w ++ point f) := by
  obtain ⟨w, f, hexpansion, hlen, htext⟩ := exists_expansion_literal hb
  refine ⟨w, f, hexpansion, hlen, ?_⟩
  rw [htext]
  unfold signOf
  by_cases hneg : valueOf x < 0
  · obtain ⟨hn, hm⟩ := (valueOf_neg_iff hb).mp hneg
    rw [if_neg hm, if_pos hn, if_pos hneg]
  · have hnone := mt (valueOf_neg_iff hb).mpr hneg
    rw [if_neg hneg]
    by_cases hm : b.mantissa = 0
    · rw [if_pos hm]
    · rw [if_neg hm, if_neg fun hn => hnone ⟨hn, hm⟩]

lemma denoted_literal (hb : Binary.ofFloat? x = some b) :
    denoted (literal x) = signed b.negative (writtenMagnitude b) := by
  obtain ⟨w, f, hexpansion, -, htext⟩ := exists_text hb
  unfold denoted
  rw [htext]
  by_cases hneg : valueOf x < 0
  · rw [if_pos hneg, (exactValue_of_expansion hexpansion (.inr rfl)).1,
      ((valueOf_neg_iff hb).mp hneg).1]
    rfl
  · rw [if_neg hneg, (exactValue_of_expansion hexpansion (.inl rfl)).1, List.nil_append]
    have hhead : ((w ++ point f).head? == some '-') = false := by
      obtain ⟨c, cs, hcons, hc⟩ := (isDecimal_of_expansion hexpansion).exists_cons
      rw [hcons, List.head?_cons, beq_eq_false_iff_ne, ne_eq, Option.some.injEq]
      rintro rfl
      exact absurd hc (by decide)
    rw [hhead]
    by_cases hm : b.mantissa = 0
    · rw [writtenMagnitude_eq_zero hm]
      cases b.negative <;> rfl
    · have hn : b.negative = false :=
        Bool.eq_false_iff.mpr fun hn => hneg ((valueOf_neg_iff hb).mpr ⟨hn, hm⟩)
      rw [hn]

/-! ### Nearness and reading -/

/-- What ten digits show is said to within half of the last. -/
lemma denoted_near (hx : x.isFinite = true) (h : ¬Vanishes x) :
    (decimals (literal x).toList).length ≤ 10 ∧
      |denoted (literal x) - valueOf x| ≤ 5 / 10 ^ 11 := by
  obtain ⟨b, hb⟩ := exists_binary hx
  obtain ⟨w, f, hexpansion, hlen, htext⟩ := exists_text hb
  have hshown : b.mantissa = 0 ∨ 0 < b.steps 10 := by
    rw [vanishes_iff hb] at h
    omega
  constructor
  · rw [htext, (exactValue_of_expansion hexpansion (isSign_ite _)).2]
    exact hlen hshown
  · rw [denoted_literal hb, valueOf_eq hb, signed_sub, abs_signed]
    exact writtenMagnitude_near hshown

/-- **A number that ten digits do not show is read back.** -/
lemma read?_of_vanishes (hx : x.isFinite = true) (h : Vanishes x) :
    read? (literal x).toList = some x := by
  obtain ⟨b, hb⟩ := exists_binary hx
  obtain ⟨hm, hsteps⟩ := (vanishes_iff hb).mp h
  obtain ⟨w, f, hexpansion, -, htext⟩ := exists_expansion_literal hb
  have hc := canonical_of_ofFloat? hb hm
  have hr := roundsTo_writtenMagnitude hb hm hsteps
  have hle : writtenMagnitude b ≤ 3 / 2 * b.magnitude := hr.le_mul hc.pos
  have hread := read?_of_expansion hc hexpansion hr (by linarith [magnitude_le_of_steps hsteps])
  obtain ⟨_, hu⟩ := (cases_of_ofFloat? hb).resolve_left fun h => hm h.1
  rw [htext, if_neg hm]
  unfold signOf
  unfold Binary.sign at hu
  by_cases hn : b.negative = true
  · rw [if_pos hn] at hu ⊢
    exact (read?_minus (isDecimal_of_expansion hexpansion)).trans
      (by rw [hread, eq_neg_ofModel_pack hu]; rfl)
  · rw [if_neg hn] at hu ⊢
    rw [List.nil_append, hread, ← eq_ofModel_pack hu]

/-! ### Order -/

lemma denoted_mono {y : Float} (hx : x.isFinite = true) (hy : y.isFinite = true)
    (h : valueOf x ≤ valueOf y) : denoted (literal x) ≤ denoted (literal y) := by
  obtain ⟨b, hb⟩ := exists_binary hx
  obtain ⟨b', hb'⟩ := exists_binary hy
  rw [valueOf_eq hb, valueOf_eq hb'] at h
  rw [denoted_literal hb, denoted_literal hb']
  have hnonneg := magnitude_nonneg b
  have hnonneg' := magnitude_nonneg b'
  have hwritten := writtenMagnitude_nonneg hb
  have hwritten' := writtenMagnitude_nonneg hb'
  cases hn : b.negative <;> cases hn' : b'.negative <;> rw [hn, hn'] at h <;>
    simp only [signed, Bool.false_eq_true, if_true, if_false] at h ⊢
  · exact writtenMagnitude_mono hb hb' h
  · -- not below a number that is not above zero: both are zero
    have hm : b.mantissa = 0 := magnitude_eq_zero_iff.mp (by linarith)
    have hm' : b'.mantissa = 0 := magnitude_eq_zero_iff.mp (by linarith)
    rw [writtenMagnitude_eq_zero hm, writtenMagnitude_eq_zero hm', neg_zero]
  · linarith
  · exact neg_le_neg (writtenMagnitude_mono hb' hb (neg_le_neg_iff.mp h))

/-! ### Tokens -/

lemma tokens_decimal {s : String} {z : Float} (hs : IsDecimal s.toList)
    (hz : read? s.toList = some z) : tokens s = .ok [(0, .number z)] := by
  have hall := isNumberChar_of_mem_decimal hs
  obtain ⟨c, cs, hcons, -⟩ := hs.exists_cons
  unfold tokens
  rw [hcons] at hall hz ⊢
  rw [List.forall_mem_cons] at hall
  have hskip := tokensFrom_skip 1 cs []
  rw [List.append_nil] at hskip
  rw [tokensFrom.eq_def]
  simp only [isBlank_of_isNumberChar hall.1, hall.1, List.takeWhile_eq_self_iff.mpr hall.2, hz,
    hskip]
  rfl

lemma exists_token (hx : x.isFinite = true) (h : 0 ≤ valueOf x) :
    ∃ z, read? (literal x).toList = some z ∧ tokens (literal x) = .ok [(0, .number z)] ∧
      Accepted (literal x) := by
  obtain ⟨b, hb⟩ := exists_binary hx
  obtain ⟨w, f, hexpansion, -, htext⟩ := exists_text hb
  rw [if_neg (not_lt.mpr h), List.nil_append] at htext
  have hdecimal : IsDecimal (literal x).toList := htext ▸ isDecimal_of_expansion hexpansion
  obtain ⟨z, hz⟩ := exists_read? hdecimal
  have htokens := tokens_decimal hdecimal hz
  have hspells : Spells (literal x) (.term (.factor (.number z))) := ⟨_, htokens, rfl⟩
  exact ⟨z, hz, htokens, hspells.accepted⟩

/-! ### All together -/

/-- What a reader may expect of the text of a number. -/
structure Faithful (x : Float) : Prop where
  /-- digits, with a point and more digits behind them or without, of which the last is no zero;
  a minus before them exactly if the number is below zero -/
  numeral : ∃ t, IsExpansion |denoted (literal x)| t ∧
    (literal x).toList = (if valueOf x < 0 then ['-'] else []) ++ t
  /-- only zero is written as zero -/
  zero : denoted (literal x) = 0 ↔ valueOf x = 0
  /-- ten digits behind the point at most, and no further off than half the last -/
  near : ¬Vanishes x →
    (decimals (literal x).toList).length ≤ 10 ∧ |denoted (literal x) - valueOf x| ≤ 5 / 10 ^ 11
  /-- what those do not show is read back -/
  vanishing : Vanishes x → read? (literal x).toList = some x
  monotone : ∀ y : Float, y.isFinite = true → valueOf x ≤ valueOf y →
    denoted (literal x) ≤ denoted (literal y)
  /-- one number of a formula, which the gate lets pass -/
  token : 0 ≤ valueOf x → ∃ z, read? (literal x).toList = some z ∧
    tokens (literal x) = .ok [(0, .number z)] ∧ Accepted (literal x)

/-- **Numbers are written faithfully.** -/
theorem literal_faithful {x : Float} (hx : x.isFinite = true) : Faithful x := by
  obtain ⟨b, hb⟩ := exists_binary hx
  have hdenoted := denoted_literal hb
  have hvalue := valueOf_eq hb
  refine ⟨?_, ?_, denoted_near hx, read?_of_vanishes hx, fun y hy => denoted_mono hx hy,
    exists_token hx⟩
  · obtain ⟨w, f, hexpansion, -, htext⟩ := exists_text hb
    rw [hdenoted, abs_signed, abs_of_nonneg (writtenMagnitude_nonneg hb)]
    exact ⟨w ++ point f, ⟨w, f, hexpansion, rfl⟩, htext⟩
  · have hzero : writtenMagnitude b = 0 ↔ b.mantissa = 0 :=
      ⟨not_imp_not.mp fun hm => (writtenMagnitude_pos hb hm).ne', writtenMagnitude_eq_zero⟩
    rw [hdenoted, hvalue, signed_eq_zero_iff, signed_eq_zero_iff, hzero, magnitude_eq_zero_iff]

theorem literal_faithful_trillionth :
    (-ofScaled 1 (-12)).isFinite = true ∧ literal (-ofScaled 1 (-12)) = "-0.000000000001" ∧
      Vanishes (-ofScaled 1 (-12)) ∧
      read? "-0.000000000001".toList = some (-ofScaled 1 (-12)) := by
  have hfinite : (-ofScaled 1 (-12)).isFinite = true := by decide +kernel
  have hliteral : literal (-ofScaled 1 (-12)) = "-0.000000000001" := by decide +kernel
  have hbinary : Binary.ofFloat? (-ofScaled 1 (-12)) = some ⟨true, 4951760157141521, -92⟩ := by
    decide +kernel
  have hvanishes : Vanishes (-ofScaled 1 (-12)) :=
    (vanishes_iff hbinary).mpr ⟨by decide, by decide +kernel⟩
  have hread := (literal_faithful hfinite).vanishing hvanishes
  rw [hliteral] at hread
  exact ⟨hfinite, hliteral, hvanishes, hread⟩

end Tariff.Formula
