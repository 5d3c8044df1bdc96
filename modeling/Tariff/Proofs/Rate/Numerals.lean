import Tariff.Proofs.Decimal.Digits
import Tariff.Proofs.Rate.Readers

/-!
What a numeral says. In ASCII digits it always has a value, but for numbers that are too large: the
commas are dropped, and what is left is read as a decimal, which may begin with its point.
-/

namespace Tariff.Rate

open Tariff.Text Tariff.Decimal

def decimals (n : List Char) : List Char := (n.dropWhile (· != '.')).tail

/-- The number nearest to the digits as a whole number with the point moved. -/
def decimalValue (n : List Char) : Float :=
  ofScaled (natOfDigits (n.filter isAsciiDigit)) (-(decimals n).length)

lemma decimals_append_point {w : List Char} (h : '.' ∉ w) (f : List Char) :
    decimals (w ++ point f) = f := by
  have hw : ∀ c ∈ w, (c != '.') = true := fun c hc => bne_iff_ne.mpr (ne_of_mem_of_not_mem hc h)
  unfold decimals
  rw [List.dropWhile_append_of_pos hw]
  cases f <;> rfl

lemma decimals_of_not_mem {n : List Char} (h : '.' ∉ n) : decimals n = [] := by
  simpa [point] using decimals_append_point h []

lemma isAsciiDigit_of_isDigits {s : List Char} (h : isDigits s = true) {c : Char} (hc : c ∈ s)
    (hascii : c.toNat < 128) : isAsciiDigit c = true := by
  have hd := isDecimalDigit_of_isDigits h c hc
  unfold isDecimalDigit at hd
  rwa [if_pos hascii] at hd

lemma ne_nil_of_isDigits {s : List Char} (h : isDigits s = true) : s ≠ [] := by
  rintro rfl
  cases h

lemma filter_of_isWhole {s : List Char} (h : isWhole s = true) (hs : ∀ c ∈ s, c.toNat < 128) :
    s.filter isAsciiDigit ≠ [] ∧ s.filter (· != ',') = s.filter isAsciiDigit := by
  constructor
  · -- the first piece has a digit
    obtain ⟨r, rs, hr, hhead⟩ := exists_splitAt (· == ',') s
    have hdigits : isDigits r = true :=
      isDigits_of_mem_splitAt h (by rw [hr]; exact List.mem_cons_self)
    obtain ⟨c, cs, rfl⟩ := List.exists_cons_of_ne_nil (ne_nil_of_isDigits hdigits)
    have hc : c ∈ s := List.mem_of_mem_head? (hhead c rfl)
    exact List.ne_nil_of_mem (List.mem_filter.mpr
      ⟨hc, isAsciiDigit_of_isDigits hdigits List.mem_cons_self (hs c hc)⟩)
  · refine List.filter_congr fun c hc => ?_
    rcases mem_splitAt_of_mem (p := (· == ',')) hc with hcomma | ⟨q, hq, hcq⟩
    · rw [eq_of_beq hcomma]
      decide
    · have hdigit := isAsciiDigit_of_isDigits (isDigits_of_mem_splitAt h hq) hcq (hs c hc)
      rw [hdigit, bne_iff_ne]
      rintro rfl
      exact absurd hdigit (by decide)

lemma filter_of_isDigits {s : List Char} (h : isDigits s = true) (hs : ∀ c ∈ s, c.toNat < 128) :
    s.filter (· != ',') = s ∧ s.filter isAsciiDigit = s := by
  have hall : ∀ c ∈ s, isAsciiDigit c = true := fun c hc =>
    isAsciiDigit_of_isDigits h hc (hs c hc)
  refine ⟨List.filter_eq_self.mpr fun c hc => ?_, List.filter_eq_self.mpr hall⟩
  rw [bne_iff_ne]
  rintro rfl
  exact absurd (hall _ hc) (by decide)

/-- A row of digits, or digits and what goes on behind a comma. -/
lemma cases_of_isWhole {s : List Char} (h : isWhole s = true) :
    (',' ∉ s ∧ isDigits s = true) ∨ ∃ w rest, s = w ++ ',' :: rest ∧ isDigits w = true := by
  have hjoin := intercalate_splitAt ',' s
  have hdigits {q : List Char} (hq : q ∈ splitAt (· == ',') s) : isDigits q = true :=
    isDigits_of_mem_splitAt h hq
  obtain ⟨w, ws, hsplit, -⟩ := exists_splitAt (· == ',') s
  have hcomma {q : List Char} (hq : q ∈ splitAt (· == ',') s) : ',' ∉ q := separator_notMem hq
  rw [hsplit] at hjoin hdigits hcomma
  have hw := hdigits List.mem_cons_self
  cases ws with
  | nil =>
    rw [List.intercalate_singleton] at hjoin
    subst hjoin
    exact .inl ⟨hcomma List.mem_cons_self, hw⟩
  | cons v vs =>
    rw [List.intercalate_cons_cons, List.append_assoc] at hjoin
    exact .inr ⟨w, [','].intercalate (v :: vs), hjoin.symm, hw⟩

/-- A numeral has digits with a point and more digits behind them or without, or it has a comma
behind its first digits. -/
lemma cases_of_isNumeral {n : List Char} (hn : isNumeral n = true) :
    (',' ∉ n ∧ ∃ w d, n = w ++ point d ∧ w ++ d ≠ [] ∧ (∀ c ∈ w, isDecimalDigit c = true) ∧
      ∀ c ∈ d, isDecimalDigit c = true) ∨
    ∃ w rest, n = w ++ ',' :: rest ∧ ∀ c ∈ w, isDecimalDigit c = true := by
  rcases parts_of_isNumeral hn with ⟨-, hwhole⟩ | ⟨whole, fraction, rfl, -, hwhole, hf⟩
  · rcases cases_of_isWhole hwhole with ⟨hcomma, hw⟩ | ⟨w, rest, rfl, hw⟩
    · exact .inl ⟨hcomma, n, [], (List.append_nil n).symm,
        by rw [List.append_nil]; exact ne_nil_of_isDigits hw, isDecimalDigit_of_isDigits hw,
        List.forall_mem_nil _⟩
    · exact .inr ⟨w, rest, rfl, isDecimalDigit_of_isDigits hw⟩
  · rw [← point_of_ne_nil (ne_nil_of_isDigits hf)]
    have hd := isDecimalDigit_of_isDigits hf
    have hcomma : ',' ∉ point fraction := by
      rw [point_of_ne_nil (ne_nil_of_isDigits hf), List.mem_cons, not_or]
      exact ⟨by decide, fun h => absurd (hd _ h) (by decide)⟩
    have hne : whole ++ fraction ≠ [] :=
      List.append_ne_nil_of_right_ne_nil _ (ne_nil_of_isDigits hf)
    rcases hwhole with rfl | hwhole
    · exact .inl ⟨hcomma, [], fraction, rfl, hne, List.forall_mem_nil _, hd⟩
    · rcases cases_of_isWhole hwhole with ⟨hw', hw⟩ | ⟨w, rest, rfl, hw⟩
      · refine .inl ⟨?_, whole, fraction, rfl, hne, isDecimalDigit_of_isDigits hw, hd⟩
        rw [List.mem_append, not_or]
        exact ⟨hw', hcomma⟩
      · exact .inr ⟨w, rest ++ point fraction, by simp, isDecimalDigit_of_isDigits hw⟩

lemma exists_of_isNumeral {n : List Char} (hn : isNumeral n = true)
    (hs : ∀ c ∈ n, c.toNat < 128) : ∃ w, n.filter (· != ',') = w ++ point (decimals n) ∧
      n.filter isAsciiDigit = w ++ decimals n ∧ w ++ decimals n ≠ [] ∧ AllDigits w ∧
      AllDigits (decimals n) := by
  have hdigits (s : List Char) : AllDigits (s.filter isAsciiDigit) := fun c hc =>
    (List.mem_filter.mp hc).2
  rcases parts_of_isNumeral hn with ⟨hdot, hwhole⟩ | ⟨whole, fraction, rfl, hdot, hwhole, hdf⟩
  · obtain ⟨hne, hcommas⟩ := filter_of_isWhole hwhole hs
    refine ⟨n.filter isAsciiDigit, ?_⟩
    rw [decimals_of_not_mem hdot, List.append_nil]
    exact ⟨by rw [hcommas]; exact (List.append_nil _).symm, rfl, hne, hdigits n, hdigits []⟩
  · obtain ⟨hsw, hsf⟩ := List.forall_mem_append.mp hs
    obtain ⟨hf, hf'⟩ := filter_of_isDigits hdf (List.forall_mem_cons.mp hsf).2
    have hne := ne_nil_of_isDigits hdf
    have hcommas : whole.filter (· != ',') = whole.filter isAsciiDigit := by
      rcases hwhole with rfl | hwhole
      · rfl
      · exact (filter_of_isWhole hwhole hsw).2
    have hdecimals : decimals (whole ++ '.' :: fraction) = fraction := by
      rw [← point_of_ne_nil hne, decimals_append_point hdot]
    rw [hdecimals, point_of_ne_nil hne, List.filter_append, hcommas, List.filter_append,
      List.filter_cons_of_pos (by decide), List.filter_cons_of_neg (by decide), hf, hf']
    exact ⟨whole.filter isAsciiDigit, rfl, rfl, List.append_ne_nil_of_right_ne_nil _ hne,
      hdigits whole, hf' ▸ hdigits fraction⟩

/-- **A numeral in ASCII digits reads as what it says**, unless that is too large. -/
theorem numeralValue?_eq {n : List Char} (hn : isNumeral n = true) (hs : ∀ c ∈ n, c.toNat < 128) :
    numeralValue? n = (some (decimalValue n)).filter (·.isFinite) := by
  obtain ⟨w, hcommas, hdigits, hne, hw, hf⟩ := exists_of_isNumeral hn hs
  unfold numeralValue? decimalValue
  rw [hcommas, read?_eq hne hw hf, hdigits]

lemma numeralValue?_of_isFinite {n : List Char} (hn : isNumeral n = true)
    (hs : ∀ c ∈ n, c.toNat < 128) (hfin : (decimalValue n).isFinite = true) :
    numeralValue? n = some (decimalValue n) := by
  rw [numeralValue?_eq hn hs]
  exact Option.filter_eq_some_iff.mpr ⟨rfl, hfin⟩

end Tariff.Rate
