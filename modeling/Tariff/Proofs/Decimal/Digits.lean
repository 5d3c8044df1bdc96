import Mathlib.Data.List.Induction
import Mathlib.Data.List.TakeWhile
import Mathlib.Tactic.IntervalCases
import Mathlib.Tactic.Ring
import Tariff.Decimal.Layout
import Tariff.Decimal.Reader
import Tariff.Proofs.Decimal.Finite
import Tariff.Proofs.Text.Classes
import Tariff.Proofs.Text.Runs

/-!
Decimals as text. What a finite number is laid out as in place is a row of digits, with a point and
more digits behind it or without, and such a text is read as a number.
-/

namespace Tariff.Decimal

open Tariff.Text

/-! ### Rows of digits -/

def AllDigits (s : List Char) : Prop := ∀ c ∈ s, isAsciiDigit c = true

lemma allDigits_digitChars (n : Nat) : AllDigits (digitChars n) :=
  fun _ hc => Nat.isDigit_of_mem_toDigits (by decide) (by decide) hc

lemma digitChars_ne_nil (n : Nat) : digitChars n ≠ [] := Nat.toDigits_ne_nil

lemma natOfDigits_digitChars (n : Nat) : natOfDigits (digitChars n) = n := by
  unfold natOfDigits digitChars
  rw [← Nat.ofDigitChars_eq_foldl]
  exact Nat.ofDigitChars_ten_toDigits

lemma natOfDigits_zeros (k : Nat) (ds : List Char) :
    natOfDigits (List.replicate k '0' ++ ds) = natOfDigits ds := by
  induction k with
  | zero => rfl
  | succ k ih => exact ih

lemma natOfDigits_append (ds es : List Char) :
    natOfDigits (ds ++ es) = natOfDigits ds * 10 ^ es.length + natOfDigits es := by
  induction es using List.reverseRecOn with
  | nil => simp [natOfDigits]
  | append_singleton es c ih =>
    have hsnoc (l : List Char) :
        natOfDigits (l ++ [c]) = 10 * natOfDigits l + (c.toNat - '0'.toNat) := by
      unfold natOfDigits
      rw [List.foldl_append, List.foldl_cons, List.foldl_nil]
    rw [← List.append_assoc, hsnoc, hsnoc, ih, List.length_append, List.length_singleton,
      Nat.pow_succ]
    ring

lemma natOfDigits_lt {ds : List Char} (h : AllDigits ds) : natOfDigits ds < 10 ^ ds.length := by
  unfold natOfDigits
  induction ds using List.reverseRecOn with
  | nil => decide
  | append_singleton ds d ih =>
    have hd : d.toNat ≤ '9'.toNat := by
      have := h d (by simp)
      simp only [isAsciiDigit, Bool.and_eq_true, decide_eq_true_eq] at this
      exact toNat_le_of_le this.2
    have hds := ih fun c hc => h c (by simp [hc])
    have hnine : '9'.toNat = 57 := rfl
    have hzero : '0'.toNat = 48 := rfl
    rw [List.foldl_append, List.foldl_cons, List.foldl_nil, List.length_append,
      List.length_singleton, Nat.pow_succ]
    omega

lemma head?_digitChars {n : Nat} (h : (digitChars n).head? = some '0') : n = 0 := by
  unfold digitChars at h
  induction n using Nat.strongRecOn with
  | ind n ih =>
    by_cases hn : n < 10
    · rw [Nat.toDigits_of_lt_base hn, List.head?_cons, Option.some.injEq] at h
      interval_cases n <;> first | rfl | exact absurd h (by decide)
    · rw [Nat.toDigits_of_base_le (by decide) (by omega)] at h
      obtain ⟨d, ds, hd⟩ := List.exists_cons_of_ne_nil (Nat.toDigits_ne_nil (n := n / 10) (b := 10))
      rw [hd, List.cons_append, List.head?_cons, ← List.head?_cons (l := ds), ← hd] at h
      have := ih (n / 10) (by omega) h
      omega

def point : List Char → List Char
  | [] => []
  | f => '.' :: f

lemma point_of_ne_nil {f : List Char} (h : f ≠ []) : point f = '.' :: f := by
  cases f with
  | nil => exact absurd rfl h
  | cons => rfl

/-- Digits, and a point and digits behind them or nothing. -/
def IsDecimal (s : List Char) : Prop :=
  ∃ whole fraction, whole ≠ [] ∧ AllDigits whole ∧ AllDigits fraction ∧ s = whole ++ point fraction

lemma isDecimal_of_digits {s : List Char} (hs : s ≠ []) (h : AllDigits s) : IsDecimal s :=
  ⟨s, [], hs, h, by simp [AllDigits], (List.append_nil s).symm⟩

lemma IsDecimal.mem {s : List Char} (h : IsDecimal s) {c : Char} (hc : c ∈ s) :
    isAsciiDigit c = true ∨ c = '.' := by
  obtain ⟨w, f, -, hw, hf, rfl⟩ := h
  rcases List.mem_append.mp hc with hc | hc
  · exact .inl (hw c hc)
  · rcases f with - | ⟨d, ds⟩
    · cases hc
    · rcases List.mem_cons.mp hc with rfl | hc
      · exact .inr rfl
      · exact .inl (hf c hc)

lemma IsDecimal.exists_cons {s : List Char} (h : IsDecimal s) :
    ∃ c cs, s = c :: cs ∧ isAsciiDigit c = true := by
  obtain ⟨w, f, hne, hw, -, rfl⟩ := h
  obtain ⟨c, cs, rfl⟩ := List.exists_cons_of_ne_nil hne
  exact ⟨c, cs ++ point f, rfl, hw c List.mem_cons_self⟩

/-! ### Layout -/

/-- The point stands before the last `places` digits, and at least one digit stands before it; no
more than one, if that is a zero. -/
lemma pointed_eq (places n : Nat) : ∃ whole fraction, whole ≠ [] ∧ AllDigits whole ∧
    AllDigits fraction ∧ fraction.length = places ∧ (whole.head? = some '0' → whole = ['0']) ∧
    natOfDigits (whole ++ fraction) = n ∧ pointed places n = whole ++ point fraction := by
  unfold pointed
  set ds := List.replicate (places + 1 - (digitChars n).length) '0' ++ digitChars n with hds
  have hdigits : AllDigits ds := by
    intro c hc
    rcases List.mem_append.mp hc with hc | hc
    · rw [List.eq_of_mem_replicate hc]; rfl
    · exact allDigits_digitChars n c hc
  have hlen : places < ds.length := by
    rw [hds, List.length_append, List.length_replicate]
    have := List.length_pos_iff.mpr (digitChars_ne_nil n)
    omega
  refine ⟨ds.take (ds.length - places), ds.drop (ds.length - places), ?_, ?_, ?_, ?_, ?_, ?_, ?_⟩
  · exact List.ne_nil_of_length_pos (by rw [List.length_take]; omega)
  · exact fun c hc => hdigits c (List.mem_of_mem_take hc)
  · exact fun c hc => hdigits c (List.mem_of_mem_drop hc)
  · rw [List.length_drop]; omega
  · intro hzero
    rw [List.head?_take, if_neg (by omega)] at hzero
    have hone : ds.length - places = 1 := by
      by_cases hl : (digitChars n).length ≤ places
      · rw [hds, List.length_append, List.length_replicate]
        omega
      · have hds : ds = digitChars n := by
          rw [hds, Nat.sub_eq_zero_of_le (by omega)]
          rfl
        have hn : n = 0 := head?_digitChars (by rwa [← hds])
        have hlen1 : ds.length = 1 := by rw [hds, hn]; rfl
        omega
    obtain ⟨d, rest, hcons⟩ := List.exists_cons_of_length_pos (by omega : 0 < ds.length)
    rw [hcons, List.head?_cons, Option.some.injEq] at hzero
    rw [hone, hcons, hzero]
    rfl
  · rw [List.take_append_drop, hds, natOfDigits_zeros, natOfDigits_digitChars]
  · dsimp only
    split_ifs with hp
    · subst hp
      rw [Nat.sub_zero, List.drop_length]
      rfl
    · rw [point_of_ne_nil]
      exact List.ne_nil_of_length_pos (by rw [List.length_drop]; omega)

lemma isDecimal_pointed (places n : Nat) : IsDecimal (pointed places n) := by
  obtain ⟨w, f, hne, hw, hf, -, -, -, h⟩ := pointed_eq places n
  exact ⟨w, f, hne, hw, hf, h⟩

lemma isDecimal_plain (d : Scaled) : IsDecimal (plain.digits d) := by
  have h : plain.digits d = plain.positional d := rfl
  rw [h]
  unfold Layout.positional
  split_ifs with he hp
  · exact isDecimal_pointed _ _
  · cases hp
  · rw [List.append_nil]
    exact isDecimal_of_digits (digitChars_ne_nil _) (allDigits_digitChars _)

/-! ### Reading -/

lemma takeWhile_append_point {w f : List Char} (hw : AllDigits w) :
    (w ++ point f).takeWhile isAsciiDigit = w := by
  rw [List.takeWhile_append_of_pos hw]
  rcases f with - | ⟨c, cs⟩ <;> simp [point, isAsciiDigit]

lemma dropWhile_append_point {w f : List Char} (hw : AllDigits w) :
    (w ++ point f).dropWhile isAsciiDigit = point f := by
  rw [List.dropWhile_append_of_pos hw]
  rcases f with - | ⟨c, cs⟩ <;> simp [point, isAsciiDigit]

lemma filter_append_point {w f : List Char} (hw : AllDigits w) (hf : AllDigits f) :
    (w ++ point f).filter isAsciiDigit = w ++ f := by
  rw [List.filter_append, List.filter_eq_self.mpr hw]
  rcases f with - | ⟨c, cs⟩
  · rfl
  · rw [point_of_ne_nil (List.cons_ne_nil c cs), List.filter_cons_of_neg (by decide),
      List.filter_eq_self.mpr hf]

/-- Digits, with or without a point, are read as the number nearest to what they say. -/
lemma readUnsigned?_eq {w f : List Char} (hne : w ++ f ≠ []) (hw : AllDigits w)
    (hf : AllDigits f) :
    readUnsigned? (w ++ point f) = some (ofScaled (natOfDigits (w ++ f)) (-f.length)) := by
  unfold readUnsigned?
  rw [takeWhile_append_point hw, dropWhile_append_point hw]
  rcases f with - | ⟨d, ds⟩
  · rw [List.append_nil] at hne ⊢
    simp [point, hne, readExponent?]
  · have ht := List.takeWhile_eq_self_iff.mpr hf
    have hd : (d :: ds).dropWhile isAsciiDigit = [] := List.dropWhile_eq_nil_iff.mpr hf
    simp [point, ht, hd, readExponent?]

lemma takeSign_of_figure {c : Char} (hc : isAsciiDigit c = true ∨ c = '.') (s : List Char) :
    takeSign (c :: s) = (false, c :: s) := by
  unfold takeSign
  split
  · next h => rw [(List.cons.inj h).1] at hc; exact absurd hc (by decide)
  · next h => rw [(List.cons.inj h).1] at hc; exact absurd hc (by decide)
  · rfl

lemma read?_eq {w f : List Char} (hne : w ++ f ≠ []) (hw : AllDigits w) (hf : AllDigits f) :
    read? (w ++ point f) = some (ofScaled (natOfDigits (w ++ f)) (-f.length)) := by
  -- neither a sign nor a word begins like this
  obtain ⟨c, cs, hcons, hc⟩ :
      ∃ c cs, w ++ point f = c :: cs ∧ (isAsciiDigit c = true ∨ c = '.') := by
    cases w with
    | nil => exact ⟨'.', f, point_of_ne_nil hne, .inr rfl⟩
    | cons d ds => exact ⟨d, ds ++ point f, rfl, .inl (hw d List.mem_cons_self)⟩
  have hletter : (c.toLower == 'i' || c.toLower == 'n') = false := by
    rcases hc with hc | rfl
    · have hascii := ascii_of_isAsciiDigit hc
      revert hc
      exact forall_ascii (P := fun c => isAsciiDigit c = true →
        (c.toLower == 'i' || c.toLower == 'n') = false) (by decide +kernel) hascii
    · decide
  have hword {s : String} (hs : s.toList.head?.any (fun d => d == 'i' || d == 'n') = true) :
      String.ofList ((c :: cs).map Char.toLower) ≠ s := by
    rintro rfl
    rw [String.toList_ofList] at hs
    exact absurd (hs.symm.trans hletter) (by decide)
  unfold read?
  rw [hcons, takeSign_of_figure hc]
  dsimp only
  rw [if_neg (not_or.mpr ⟨hword rfl, hword rfl⟩), if_neg (hword rfl), ← hcons,
    readUnsigned?_eq hne hw hf]
  rfl

lemma IsDecimal.takeSign_eq {s : List Char} (h : IsDecimal s) : takeSign s = (false, s) := by
  obtain ⟨c, cs, rfl, hc⟩ := h.exists_cons
  exact takeSign_of_figure (.inl hc) cs

lemma exists_read? {s : List Char} (h : IsDecimal s) : ∃ x, read? s = some x := by
  obtain ⟨w, f, hne, hw, hf, rfl⟩ := h
  exact ⟨_, read?_eq (List.append_ne_nil_of_left_ne_nil hne f) hw hf⟩

/-- Behind a minus a decimal is read as the negative. -/
lemma read?_minus {s : List Char} (h : IsDecimal s) : read? ('-' :: s) = (read? s).map (-·) := by
  have hminus : takeSign ('-' :: s) = (true, s) := rfl
  unfold read?
  rw [hminus, h.takeSign_eq]
  simp

/-! ### Finite numbers -/

open Float.Model (UnpackedFloat Format) in
lemma ofFloat?_eq_none_iff {x : Float} : Binary.ofFloat? x = none ↔ x.isFinite = false := by
  have hx : x.isFinite = (UnpackedFloat.unpack Format.binary64 x.toBits.toBitVec).isFinite := rfl
  rw [hx]
  unfold Binary.ofFloat?
  cases UnpackedFloat.unpack Format.binary64 x.toBits.toBitVec with
  | notANumber | infinity => exact iff_of_true rfl rfl
  | zero | finite => exact iff_of_false (Option.some_ne_none _) Bool.noConfusion

end Tariff.Decimal
