import Tariff.Proofs.Text.Classes
import Tariff.Proofs.Text.Upper

/-!
Lower case is a normal form: the characters of a text in lower case stay as they are when it is put
in lower case again.
-/

namespace Tariff.Text

/-- A character that lower case leaves alone wherever it stands. -/
structure Low (c : Char) : Prop where
  lower : lowerChar c = [c]
  sigma : c ≠ 'Σ'

def capitals : List Nat :=
  [0x130, 0x3A3] ++ (List.range' 65 26 ++ lowerRuns.flatMap CaseRun.sources)

def smalls : List Nat := lowerRuns.flatMap CaseRun.images

lemma smalls_disjoint : bitSet smalls &&& bitSet capitals = 0 := by decide +kernel

lemma smalls_valid : smalls.all isInk = true := by decide +kernel

lemma toLower_of_not_capital : ∀ n < 128, n ∉ List.range' 65 26 →
    (Char.ofNat n).toLower = Char.ofNat n := by
  decide +kernel

lemma toLower_toLower : ∀ n < 128, lowerChar (Char.ofNat n).toLower = [(Char.ofNat n).toLower] ∧
    (Char.ofNat n).toLower ≠ 'Σ' := by
  decide +kernel

lemma low_of_few : ∀ d ∈ ['i', '\u0307'] ++ ['ς', 'σ'], Low d := by
  have h : ∀ d ∈ ['i', '\u0307'] ++ ['ς', 'σ'], lowerChar d = [d] ∧ d ≠ 'Σ' :=
    forall_mem_of_all (by decide +kernel)
  exact fun d hd => ⟨(h d hd).1, (h d hd).2⟩

lemma low_of_not_capital {c : Char} (h : c.toNat ∉ capitals) : Low c := by
  simp only [capitals, List.mem_append, List.mem_cons, List.not_mem_nil, or_false, not_or] at h
  obtain ⟨⟨hi, hsigma⟩, h1, h2⟩ := h
  refine ⟨?_, fun hc => hsigma (by rw [hc]; rfl)⟩
  unfold lowerChar
  split_ifs with hc hd
  · have := toLower_of_not_capital c.toNat hc h1
    rw [Char.ofNat_toNat] at this
    rw [this]
  · exact absurd (by rw [eq_of_beq hd]; rfl) hi
  · rw [caseImage?_eq_none h2]
    rfl

lemma low_of_mem_smalls {n : Nat} (h : n ∈ smalls) : Low (Char.ofNat n) := by
  have hi : isInk n = true := List.all_eq_true.mp smalls_valid n h
  simp only [isInk, Bool.and_eq_true, Bool.or_eq_true, Nat.blt_eq, Nat.ble_eq] at hi
  refine low_of_not_capital ?_
  rw [toNat_ofNat (by unfold Nat.isValidChar; omega)]
  exact not_mem_of_land_eq_zero smalls_disjoint h

lemma low_of_mem_lowerChar {c d : Char} (hc : c ≠ 'Σ') (h : d ∈ lowerChar c) : Low d := by
  unfold lowerChar at h
  split_ifs at h with ha hi
  · have hlow := toLower_toLower c.toNat ha
    rw [Char.ofNat_toNat] at hlow
    rw [List.mem_singleton.mp h]
    exact ⟨hlow.1, hlow.2⟩
  · exact low_of_few d (List.mem_append_left _ h)
  · rw [List.mem_singleton] at h
    cases hm : caseImage? lowerRuns c.toNat with
    | none =>
      rw [hm] at h
      have hdc : d = c := h
      rw [hdc]
      refine ⟨?_, hc⟩
      unfold lowerChar
      rw [if_neg ha, if_neg hi, hm]
      rfl
    | some n =>
      rw [hm] at h
      rw [h]
      exact low_of_mem_smalls (caseImage?_mem hm)

lemma low_of_mem_lowerFrom {afterCased : Bool} {s : List Char} {d : Char}
    (h : d ∈ lowerFrom afterCased s) : Low d := by
  induction s generalizing afterCased with
  | nil => cases h
  | cons c cs ih =>
    unfold lowerFrom at h
    rcases List.mem_append.mp h with h | h
    · split_ifs at h with hc hf
      · rw [List.mem_singleton.mp h]
        exact low_of_few 'ς' (by decide)
      · rw [List.mem_singleton.mp h]
        exact low_of_few 'σ' (by decide)
      · exact low_of_mem_lowerChar (fun he => hc (beq_iff_eq.mpr he)) h
    · exact ih h

lemma low_of_mem_lower {s : List Char} {d : Char} (h : d ∈ lower s) : Low d :=
  low_of_mem_lowerFrom h

lemma lowerFrom_of_low {afterCased : Bool} {s : List Char} (h : ∀ c ∈ s, Low c) :
    lowerFrom afterCased s = s := by
  induction s generalizing afterCased with
  | nil => rfl
  | cons c cs ih =>
    rw [List.forall_mem_cons] at h
    have hc : (c == 'Σ') = false := beq_eq_false_iff_ne.mpr h.1.sigma
    unfold lowerFrom
    rw [ih h.2, hc, h.1.lower]
    rfl

/-- A text of low characters is its own lower case. -/
lemma lower_of_low {s : List Char} (h : ∀ c ∈ s, Low c) : lower s = s := lowerFrom_of_low h

/-! ### Small letters, digits and blanks -/

lemma low_of_ascii {c : Char} (hc : c.toNat < 128) (h : c.toNat ∉ List.range' 65 26) : Low c := by
  refine ⟨?_, ?_⟩
  · have := toLower_of_not_capital c.toNat hc h
    rw [Char.ofNat_toNat] at this
    unfold lowerChar
    rw [if_pos hc, this]
  · rintro rfl
    exact absurd hc (by decide)

lemma wideBlanks_disjoint : bitSet wideBlanks.points &&& bitSet capitals = 0 := by decide +kernel

lemma decimalDigits_disjoint : bitSet decimalDigits.points &&& bitSet capitals = 0 := by
  decide +kernel

lemma low_of_isBlank {c : Char} (h : isBlank c = true) : Low c := by
  by_cases hc : c.toNat < 128
  · have hle := toNat_of_isBlank hc h
    refine low_of_ascii hc fun hmem => ?_
    rw [List.mem_range'_1] at hmem
    omega
  · unfold isBlank at h
    rw [if_neg hc] at h
    exact low_of_not_capital
      (not_mem_of_land_eq_zero wideBlanks_disjoint (CodePoints.mem_points_of_covers h))

lemma low_of_isDecimalDigit {c : Char} (h : isDecimalDigit c = true) : Low c := by
  unfold isDecimalDigit at h
  split_ifs at h with hc
  · have hdigit := toNat_of_isAsciiDigit h
    refine low_of_ascii hc fun hmem => ?_
    rw [List.mem_range'_1] at hmem
    omega
  · exact low_of_not_capital
      (not_mem_of_land_eq_zero decimalDigits_disjoint (CodePoints.mem_points_of_covers h))

lemma toLower_of_not_ascii {c : Char} (h : ¬c.toNat < 128) : c.toLower = c := by
  unfold Char.toLower
  refine dif_neg fun hc => h ?_
  have : c.toNat ≤ 90 := toNat_le_of_le hc.2
  omega

lemma toLower_of_isBlank {c : Char} (h : isBlank c = true) : c.toLower = c := by
  by_cases hc : c.toNat < 128
  · revert h
    exact forall_ascii (P := fun c => isBlank c = true → c.toLower = c) (by decide +kernel) hc
  · exact toLower_of_not_ascii hc

lemma lowerFrom_of_fold {afterCased : Bool} {s : List Char} (h : ∀ c ∈ s.map Char.toLower, Low c) :
    lowerFrom afterCased s = s.map Char.toLower := by
  induction s generalizing afterCased with
  | nil => rfl
  | cons c cs ih =>
    rw [List.map_cons, List.forall_mem_cons] at h
    obtain ⟨hc, hcs⟩ := h
    have hsigma : (c == 'Σ') = false := by
      rw [beq_eq_false_iff_ne]
      rintro rfl
      exact hc.sigma (by decide)
    have himage : lowerChar c = [c.toLower] := by
      by_cases hascii : c.toNat < 128
      · unfold lowerChar
        rw [if_pos hascii]
      · rw [toLower_of_not_ascii hascii] at hc ⊢
        exact hc.lower
    unfold lowerFrom
    rw [ih hcs, hsigma, himage]
    rfl

/-- Where only ASCII letters have another case, lower case is that of ASCII. -/
lemma lower_of_fold {s : List Char} (h : ∀ c ∈ s.map Char.toLower, Low c) :
    lower s = s.map Char.toLower := lowerFrom_of_fold h

end Tariff.Text
