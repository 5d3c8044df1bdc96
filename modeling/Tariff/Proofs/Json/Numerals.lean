import Tariff.Json.Numeral
import Tariff.Json.Printer
import Tariff.Proofs.Decimal.Digits

/-!
Numerals of JSON texts. Every number that is written, whole or not, is a numeral of the grammar and
is taken as that numeral, so what is read back depends on the number alone. Integers of 64 bits are
read as they were; a floating-point number may come back as a neighbour.
-/

namespace Tariff.Json

open Tariff.Decimal (AllDigits digitChars)
open Tariff.Text (isAsciiDigit)

/-! ### Taking a numeral -/

def fractionText : Option (List Char) → List Char
  | none => []
  | some ds => '.' :: ds

/-- The text of an exponent, which always has its sign. -/
def exponentText : Option (Bool × List Char) → List Char
  | none => []
  | some (minus, ds) => 'e' :: (if minus then '-' else '+') :: ds

def Numeral.text (l : Numeral) : List Char :=
  (if l.negative then ['-'] else []) ++
    (l.whole ++ (fractionText l.fraction ++ exponentText l.exponent))

/-- A numeral of the grammar: no part is without digits, and none but zero begins with a zero. -/
structure Numeral.Proper (l : Numeral) : Prop where
  whole : AllDigits l.whole ∧ l.whole ≠ []
  leading : l.whole.head? = some '0' → l.whole = ['0']
  fraction : ∀ ds, l.fraction = some ds → AllDigits ds ∧ ds ≠ []
  exponent : ∀ minus ds, l.exponent = some (minus, ds) → AllDigits ds ∧ ds ≠ []

def isNumeralChar (c : Char) : Bool := isAsciiDigit c || c == '.' || c == 'e' || c == 'E'

/-- A text before which a numeral ends. -/
def Delimits (s : List Char) : Prop := s.head?.any isNumeralChar = false

lemma Delimits.not_digit {s : List Char} (h : Delimits s) : s.head?.any isAsciiDigit = false := by
  cases s with
  | nil => rfl
  | cons c cs =>
    unfold Delimits isNumeralChar at h
    simp_all

def takeMinus (text : List Char) : Bool × List Char :=
  match text with
  | '-' :: r => (true, r)
  | _ => (false, text)

def takeFraction (rest : List Char) : Option (List Char) × List Char :=
  match rest with
  | '.' :: r =>
    let ds := r.takeWhile isAsciiDigit
    if ds.isEmpty then (none, rest) else (some ds, r.drop ds.length)
  | _ => (none, rest)

def takeExponent (rest : List Char) : Option (Bool × List Char) × List Char :=
  match rest with
  | c :: r =>
    if c == 'e' || c == 'E' then
      let (minus, digits) := Decimal.takeSign r
      let ds := digits.takeWhile isAsciiDigit
      if ds.isEmpty then (none, rest) else (some (minus, ds), digits.drop ds.length)
    else (none, rest)
  | [] => (none, rest)

lemma takeNumeral_parts (text : List Char) : takeNumeral text = (
    let m := takeMinus text
    let whole := if m.2.head? == some '0' then ['0'] else m.2.takeWhile isAsciiDigit
    if whole.isEmpty then none
    else
      let f := takeFraction (m.2.drop whole.length)
      let x := takeExponent f.2
      some (⟨m.1, whole, f.1, x.1⟩, text.length - x.2.length)) := rfl

lemma takeNumeral_eq {text rest whole : List Char} {negative : Bool}
    (hs : takeMinus text = (negative, rest))
    (hw : (if rest.head? == some '0' then ['0'] else rest.takeWhile isAsciiDigit) = whole)
    (hne : whole ≠ []) {fraction : Option (List Char)} {rest' : List Char}
    (hf : takeFraction (rest.drop whole.length) = (fraction, rest'))
    {exponent : Option (Bool × List Char)} {tail : List Char}
    (he : takeExponent rest' = (exponent, tail)) :
    takeNumeral text = some (⟨negative, whole, fraction, exponent⟩, text.length - tail.length) := by
  rw [takeNumeral_parts, hs]
  dsimp only
  rw [hw, if_neg (by simpa using hne), hf]
  dsimp only
  rw [he]

lemma takeMinus_append (negative : Bool) {whole : List Char} (hw : AllDigits whole)
    (hne : whole ≠ []) (rest : List Char) :
    takeMinus ((if negative then ['-'] else []) ++ (whole ++ rest)) =
      (negative, whole ++ rest) := by
  cases negative with
  | true => rfl
  | false =>
    obtain ⟨d, ds, rfl⟩ := List.exists_cons_of_ne_nil hne
    have hd := hw d List.mem_cons_self
    rw [if_neg Bool.false_ne_true, List.nil_append, List.cons_append]
    unfold takeMinus
    split
    next heq => rw [(List.cons.inj heq).1] at hd; exact absurd hd (by decide)
    next => rfl

lemma takeFraction_text {fraction : Option (List Char)} {rest : List Char}
    (hf : ∀ ds, fraction = some ds → AllDigits ds ∧ ds ≠ [])
    (hr : rest.head?.any (fun c => isAsciiDigit c || c == '.') = false) :
    takeFraction (fractionText fraction ++ rest) = (fraction, rest) := by
  cases fraction with
  | none =>
    unfold fractionText takeFraction
    rw [List.nil_append]
    split
    · simp at hr
    · rfl
  | some ds =>
    obtain ⟨hd, hne⟩ := hf ds rfl
    have hstop : rest.head?.any isAsciiDigit = false := by
      cases rest <;> simp_all
    have htake := Text.takeWhile_append hd hstop
    unfold fractionText takeFraction
    simp [htake, hne]

lemma takeExponent_text {exponent : Option (Bool × List Char)} {tail : List Char}
    (he : ∀ minus ds, exponent = some (minus, ds) → AllDigits ds ∧ ds ≠ []) (ht : Delimits tail) :
    takeExponent (exponentText exponent ++ tail) = (exponent, tail) := by
  rcases exponent with - | ⟨minus, ds⟩
  · unfold exponentText
    cases tail with
    | nil => rfl
    | cons c cs =>
      unfold Delimits isNumeralChar at ht
      unfold takeExponent
      simp_all
  · obtain ⟨hd, hne⟩ := he minus ds rfl
    have hsign : Decimal.takeSign ((if minus then '-' else '+') :: (ds ++ tail)) =
        (minus, ds ++ tail) := by
      cases minus <;> rfl
    have htake := Text.takeWhile_append hd ht.not_digit
    unfold exponentText takeExponent
    simp [hsign, htake, hne]

lemma head?_exponentText (exponent : Option (Bool × List Char)) {tail : List Char}
    (ht : Delimits tail) :
    (exponentText exponent ++ tail).head?.any (fun c => isAsciiDigit c || c == '.') = false := by
  cases exponent with
  | none =>
    unfold Delimits isNumeralChar at ht
    cases tail <;> simp_all [exponentText]
  | some p => rfl

/-- A numeral is taken as it is, up to where it ends. -/
lemma takeNumeral_text {l : Numeral} (h : l.Proper) {tail : List Char} (ht : Delimits tail) :
    takeNumeral (l.text ++ tail) = some (l, l.text.length) := by
  obtain ⟨negative, whole, fraction, exponent⟩ := l
  obtain ⟨⟨hdigits, hne⟩, hleading, hfraction, hexponent⟩ := h
  dsimp only at hdigits hne hleading hfraction hexponent
  have he := head?_exponentText exponent ht
  set rest := fractionText fraction ++ (exponentText exponent ++ tail)
  have hrest : rest.head?.any isAsciiDigit = false := by
    cases fraction with
    | none => cases hx : exponentText exponent ++ tail <;> simp_all [rest, fractionText]
    | some ds => rfl
  have hwhole : (if (whole ++ rest).head? == some '0' then ['0']
      else (whole ++ rest).takeWhile isAsciiDigit) = whole := by
    have hhead : (whole ++ rest).head? = whole.head? := by
      obtain ⟨d, ds, rfl⟩ := List.exists_cons_of_ne_nil hne
      rfl
    rw [Text.takeWhile_append hdigits hrest, hhead]
    split_ifs with hzero
    · exact (hleading (eq_of_beq hzero)).symm
    · rfl
  have htext : Numeral.text ⟨negative, whole, fraction, exponent⟩ ++ tail =
      (if negative then ['-'] else []) ++ (whole ++ rest) := by
    simp only [Numeral.text, List.append_assoc, rest]
  have hlength : (Numeral.text ⟨negative, whole, fraction, exponent⟩).length =
      (Numeral.text ⟨negative, whole, fraction, exponent⟩ ++ tail).length - tail.length := by
    rw [List.length_append, Nat.add_sub_cancel]
  rw [hlength, htext]
  refine takeNumeral_eq (takeMinus_append negative hdigits hne rest) hwhole hne ?_
    (takeExponent_text hexponent ht)
  rw [List.drop_left]
  exact takeFraction_text hfraction he

/-! ### Numbers as numerals -/

lemma leading_digitChars (n : Nat) :
    (digitChars n).head? = some '0' → digitChars n = ['0'] := by
  intro h
  rw [Decimal.head?_digitChars h]
  rfl

def numeralOf (n : Int) : Numeral := ⟨decide (n < 0), digitChars n.natAbs, none, none⟩

lemma proper_numeralOf (n : Int) : (numeralOf n).Proper where
  whole := ⟨Decimal.allDigits_digitChars _, Decimal.digitChars_ne_nil _⟩
  leading := leading_digitChars _
  fraction _ h := by cases h
  exponent _ _ h := by cases h

lemma render_integer (n : Int) : (Number.integer n).render = (numeralOf n).text := by
  have h : (Number.integer n).render = (Int.repr n).toList := rfl
  rw [h, Int.repr_eq_if]
  unfold Numeral.text numeralOf fractionText exponentText
  by_cases hn : 0 ≤ n
  · have habs : n.toNat = n.natAbs := by omega
    simp [hn, habs, Nat.toList_repr, digitChars, Int.not_lt.mpr hn]
  · have habs : (-n).toNat = n.natAbs := by omega
    simp [hn, habs, Nat.toList_repr, digitChars, Int.not_le.mp hn]

def Numeral.IsPointed (l : Numeral) : Prop := l.fraction.isSome ∨ l.exponent.isSome

def Numeral.digits (l : Numeral) : Nat := Decimal.natOfDigits (l.whole ++ l.fraction.getD [])

def exponentValue : Option (Bool × List Char) → Int
  | none => 0
  | some (true, ds) => -(Decimal.natOfDigits ds : Int)
  | some (false, ds) => Decimal.natOfDigits ds

lemma exponentValue_digitChars (e : Int) :
    exponentValue (some (decide (e < 0), digitChars e.natAbs)) = e := by
  by_cases hneg : e < 0
  · rw [decide_eq_true hneg, exponentValue, Decimal.natOfDigits_digitChars]
    omega
  · rw [decide_eq_false hneg, exponentValue, Decimal.natOfDigits_digitChars]
    omega

/-- The power of ten that the digits are taken times. -/
def Numeral.scale (l : Numeral) : Int := exponentValue l.exponent - (l.fraction.getD []).length

/-- A numeral, with a fraction or an exponent, that says a decimal. -/
structure Numeral.Says (l : Numeral) (d : Decimal.Scaled) : Prop where
  proper : l.Proper
  pointed : l.IsPointed
  value : ∃ j : Nat, l.digits = d.digits * 10 ^ j ∧ l.scale + j = d.exponent

open Decimal in
lemma exists_numeral_positional (d : Scaled) : ∃ l : Numeral,
    l.Says d ∧ l.negative = false ∧ l.exponent = none ∧ numberLayout.positional d = l.text := by
  unfold Layout.positional
  split_ifs with he hp
  · obtain ⟨w, f, hne, hw, hf, hlen, hlead, hdigits, h⟩ :=
      pointed_eq (-d.exponent).toNat d.digits
    have hfne : f ≠ [] := List.ne_nil_of_length_pos (by omega)
    refine ⟨⟨false, w, some f, none⟩, ⟨⟨⟨hw, hne⟩, hlead, ?_, by simp⟩, .inl rfl, ?_⟩, rfl, rfl, ?_⟩
    · rintro _ ⟨⟩
      exact ⟨hf, hfne⟩
    · refine ⟨0, by rw [pow_zero, mul_one]; exact hdigits, ?_⟩
      simp only [Numeral.scale, exponentValue, Option.getD_some, hlen]
      omega
    · rw [h, point_of_ne_nil hfne]
      simp [Numeral.text, fractionText, exponentText]
  · refine ⟨⟨false, digitChars (d.digits * Nat.pow 10 d.exponent.toNat), some ['0'], none⟩,
      ⟨⟨⟨allDigits_digitChars _, digitChars_ne_nil _⟩, leading_digitChars _, ?_, by simp⟩, .inl rfl,
        ?_⟩, rfl, rfl, ?_⟩
    · rintro _ ⟨⟩
      exact ⟨by simp [AllDigits, isAsciiDigit], by simp⟩
    · refine ⟨d.exponent.toNat + 1, ?_, ?_⟩
      · have hzero : natOfDigits ['0'] = 0 := rfl
        simp only [Numeral.digits, Option.getD_some]
        rw [natOfDigits_append, natOfDigits_digitChars, hzero, add_zero, pow_succ, mul_assoc]
        rfl
      · simp only [Numeral.scale, exponentValue, Option.getD_some, List.length_singleton]
        omega
    · simp [Numeral.text, fractionText, exponentText]
  · exact absurd rfl hp

open Decimal in
lemma exists_numeral_scientific (d : Scaled) : ∃ l : Numeral,
    l.Says d ∧ l.negative = false ∧ l.whole.length = 1 ∧ scientific d = l.text := by
  unfold scientific
  dsimp only
  obtain ⟨c, cs, hds⟩ := List.exists_cons_of_ne_nil (digitChars_ne_nil d.digits)
  have hdigits := allDigits_digitChars d.digits
  have hvalue := natOfDigits_digitChars d.digits
  rw [hds] at hdigits hvalue ⊢
  set e := d.exponent + ((c :: cs).length : Int) - 1 with he
  rw [List.length_cons] at he
  have hfraction : (if cs = [] then none else some cs).getD [] = cs := by
    split_ifs with hcs
    · exact hcs.symm
    · rfl
  refine ⟨⟨false, [c], if cs = [] then none else some cs,
      some (decide (e < 0), digitChars e.natAbs)⟩,
    ⟨⟨⟨fun x hx => hdigits x ?_, by simp⟩, ?_, ?_, ?_⟩, .inr rfl, ?_⟩, rfl, rfl, ?_⟩
  · rw [List.mem_singleton.mp hx]
    exact List.mem_cons_self
  · simp
  · intro ds hf
    split_ifs at hf with hcs
    cases hf
    exact ⟨fun x hx => hdigits x (List.mem_cons_of_mem _ hx), hcs⟩
  · rintro _ _ ⟨⟩
    exact ⟨allDigits_digitChars _, digitChars_ne_nil _⟩
  · refine ⟨0, ?_, ?_⟩
    · rw [pow_zero, mul_one, Numeral.digits, hfraction]
      exact hvalue
    · simp only [Numeral.scale, hfraction, exponentValue_digitChars]
      omega
  · by_cases hcs : cs = [] <;> by_cases he : e < 0 <;>
      simp [Numeral.text, fractionText, exponentText, hcs, he]

/-- Before the point stand few enough digits to be taken in full. -/
def Numeral.IsShort (l : Numeral) : Prop := Decimal.natOfDigits l.whole < 10 ^ 16

lemma Numeral.whole_mul_le (l : Numeral) :
    Decimal.natOfDigits l.whole * 10 ^ (l.fraction.getD []).length ≤ l.digits := by
  unfold Numeral.digits
  rw [Decimal.natOfDigits_append]
  exact Nat.le_add_right _ _

/-- Digits that are in place say no more than there is room for. -/
lemma Numeral.Says.isShort {l : Numeral} {d : Decimal.Scaled} (h : l.Says d)
    (he : l.exponent = none)
    (hd : d.digits = 0 ∨ d.exponent + (digitChars d.digits).length ≤ 16) : l.IsShort := by
  obtain ⟨j, hdigits, hscale⟩ := h.value
  have hwhole := l.whole_mul_le
  rw [hdigits] at hwhole
  simp only [Numeral.scale, exponentValue, he] at hscale
  set places := (l.fraction.getD []).length
  have hpos : 0 < 10 ^ places := Nat.pow_pos (by decide)
  refine Nat.lt_of_mul_lt_mul_right (a := 10 ^ places) (Nat.lt_of_le_of_lt hwhole ?_)
  rcases hd with hd | hd
  · rw [hd, Nat.zero_mul]
    exact Nat.mul_pos (by decide) hpos
  · have hlt : d.digits < 10 ^ (digitChars d.digits).length := by
      conv_lhs => rw [← Decimal.natOfDigits_digitChars d.digits]
      exact Decimal.natOfDigits_lt (Decimal.allDigits_digitChars _)
    calc d.digits * 10 ^ j < 10 ^ (digitChars d.digits).length * 10 ^ j :=
          Nat.mul_lt_mul_of_pos_right hlt (Nat.pow_pos (by decide))
      _ = 10 ^ ((digitChars d.digits).length + j) := (Nat.pow_add _ _ _).symm
      _ ≤ 10 ^ (16 + places) := Nat.pow_le_pow_right (by decide) (by omega)
      _ = 10 ^ 16 * 10 ^ places := Nat.pow_add _ _ _

open Decimal in
lemma exists_numeral_digits (d : Scaled) : ∃ l : Numeral,
    l.Says d ∧ l.negative = false ∧ l.IsShort ∧ numberLayout.digits d = l.text := by
  unfold Layout.digits
  dsimp only [numberLayout]
  split_ifs with hplace
  · obtain ⟨l, hl, hpos, he, htext⟩ := exists_numeral_positional d
    exact ⟨l, hl, hpos, hl.isShort he (hplace.imp_right fun h => by omega), htext⟩
  · obtain ⟨l, hl, hpos, hone, htext⟩ := exists_numeral_scientific d
    have hdigit := natOfDigits_lt hl.proper.whole.1
    rw [hone] at hdigit
    exact ⟨l, hl, hpos, Nat.lt_of_lt_of_le hdigit (by decide), htext⟩

/-- The decimal that a finite number is written as, without its sign. -/
def decimalOf (b : Decimal.Binary) : Decimal.Scaled :=
  if b.mantissa = 0 then ⟨0, 0⟩ else Decimal.shortest numberLayout.tie b.mantissa b.exponent

lemma exists_numeral_finite (b : Decimal.Binary) : ∃ l : Numeral,
    l.Says (decimalOf b) ∧ l.IsShort ∧ numberLayout.finite b = l.text := by
  obtain ⟨l, hl, hpos, hshort, htext⟩ := exists_numeral_digits (decimalOf b)
  refine ⟨{ l with negative := b.negative },
    ⟨⟨hl.proper.whole, hl.proper.leading, hl.proper.fraction, hl.proper.exponent⟩, hl.pointed,
      hl.value⟩, hshort, ?_⟩
  have hfinite : numberLayout.finite b =
      (if b.negative then ['-'] else []) ++ numberLayout.digits (decimalOf b) := rfl
  rw [hfinite, htext]
  unfold Numeral.text
  rw [hpos]
  rfl

lemma exists_render_eq {x : Float} (hx : x.isFinite = true) : ∃ b,
    Decimal.Binary.ofFloat? x = some b ∧ (Number.float x).render = numberLayout.finite b := by
  have h : (Number.float x).render = (numberLayout.render x).toList := if_pos hx
  rw [h]
  unfold Decimal.Layout.render
  cases hb : Decimal.Binary.ofFloat? x with
  | none =>
    rw [Decimal.ofFloat?_eq_none_iff.mp hb] at hx
    cases hx
  | some b => exact ⟨b, rfl, String.toList_ofList⟩

lemma exists_numeral_float {x : Float} (hx : x.isFinite = true) : ∃ l : Numeral,
    l.Proper ∧ l.IsPointed ∧ (Number.float x).render = l.text := by
  obtain ⟨b, -, hrender⟩ := exists_render_eq hx
  obtain ⟨l, hl, -, htext⟩ := exists_numeral_finite b
  exact ⟨l, hl.proper, hl.pointed, hrender.trans htext⟩

/-! ### Reading numbers back -/

/-- What the text of a number is read as. -/
def Number.reread? (n : Number) : Option Number := (takeNumeral n.render).bind (·.1.value?)

/-- Whether a number is written as one; what is not finite is written as null. -/
def Number.isWritten : Number → Bool
  | .integer _ => true
  | .float x => x.isFinite

lemma exists_numeral {n : Number} (h : n.isWritten = true) :
    ∃ l : Numeral, l.Proper ∧ n.render = l.text := by
  cases n with
  | integer n => exact ⟨numeralOf n, proper_numeralOf n, render_integer n⟩
  | float x =>
    obtain ⟨l, hl, -, htext⟩ := exists_numeral_float h
    exact ⟨l, hl, htext⟩

lemma delimits_nil : Delimits [] := rfl

/-- The text of a number is taken as a numeral with the value that it is read as, wherever it
stands. -/
lemma takeNumeral_render {n : Number} (h : n.isWritten = true) {tail : List Char}
    (ht : Delimits tail) :
    ∃ l, takeNumeral (n.render ++ tail) = some (l, n.render.length) ∧ l.value? = n.reread? := by
  obtain ⟨l, hl, htext⟩ := exists_numeral h
  have halone := takeNumeral_text hl delimits_nil
  rw [List.append_nil] at halone
  refine ⟨l, by rw [htext, takeNumeral_text hl ht], ?_⟩
  unfold Number.reread?
  rw [htext, halone]
  rfl

lemma le_foldl_digits (n : Nat) (ds : List Char) :
    n ≤ ds.foldl (fun n c => 10 * n + (c.toNat - '0'.toNat)) n := by
  induction ds generalizing n with
  | nil => exact Nat.le_refl n
  | cons d ds ih =>
    have hle : n ≤ 10 * n + (d.toNat - '0'.toNat) := by omega
    exact Nat.le_trans hle (ih _)

/-- Digits are taken in full if what they spell is small enough. -/
lemma absorb_eq {n : Nat} {ds : List Char}
    (h : ds.foldl (fun n c => 10 * n + (c.toNat - '0'.toNat)) n < Nat.pow 2 64) :
    absorb n ds = (ds.foldl (fun n c => 10 * n + (c.toNat - '0'.toNat)) n, 0) := by
  induction ds generalizing n with
  | nil => rfl
  | cons d ds ih =>
    unfold absorb
    dsimp only
    rw [if_pos (Nat.lt_of_le_of_lt (le_foldl_digits _ ds) h), ih h]
    rfl

/-- **An integer of 64 bits**, signed or unsigned, is read back as it is. -/
theorem reread?_integer {n : Int} (hlow : -2 ^ 63 ≤ n) (hhigh : n < 2 ^ 64) :
    (Number.integer n).reread? = some (.integer n) := by
  have htake := takeNumeral_text (proper_numeralOf n) delimits_nil
  rw [List.append_nil] at htake
  unfold Number.reread?
  rw [render_integer, htake, Option.bind_some]
  have hdigits := Decimal.natOfDigits_digitChars n.natAbs
  unfold Decimal.natOfDigits at hdigits
  have hpow : Nat.pow 2 64 = 18446744073709551616 := rfl
  have hpow' : Nat.pow 2 63 = 9223372036854775808 := rfl
  have habsorb : absorb 0 (digitChars n.natAbs) = (n.natAbs, 0) := by
    rw [absorb_eq (by rw [hdigits]; omega), hdigits]
  unfold Numeral.value? numeralOf
  dsimp only
  rw [habsorb]
  dsimp only
  rw [if_neg (by omega)]
  by_cases hn : n < 0
  · rw [if_neg (by simp [hn]), if_neg (by omega), Option.some.injEq, Number.integer.injEq]
    omega
  · rw [if_pos (by simpa using hn), Option.some.injEq, Number.integer.injEq]
    omega

lemma exists_float_of_reread? {x : Float} {n : Number} (h : (Number.float x).reread? = some n) :
    ∃ y, n = .float y := by
  unfold Number.reread? at h
  by_cases hx : x.isFinite = true
  · obtain ⟨l, hl, hpoint, htext⟩ := exists_numeral_float hx
    have htake := takeNumeral_text hl delimits_nil
    rw [List.append_nil] at htake
    rw [htext, htake, Option.bind_some] at h
    unfold Numeral.value? at h
    dsimp only at h
    split at h
    next hf he => simp [Numeral.IsPointed, hf, he] at hpoint
    next =>
      obtain ⟨y, -, rfl⟩ := Option.map_eq_some_iff.mp h
      exact ⟨_, rfl⟩
  · have hnull : (Number.float x).render = "null".toList := if_neg hx
    rw [hnull] at h
    cases h

end Tariff.Json
