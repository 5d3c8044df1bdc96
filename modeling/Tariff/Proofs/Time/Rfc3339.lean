import Tariff.Proofs.Decimal.Digits
import Tariff.Proofs.Text.Classes
import Tariff.Proofs.Time.Calendar
import Tariff.Time.Rfc3339

/-!
Points in time as text. A point in time that can be told is read back from its text to the
nanosecond, and every point in time that is read from a text can be told.
-/

namespace Tariff.Instant

open Tariff.Decimal
open Tariff.Text

/-- A point in time that can be told: its year is in range, and it holds more than a second's worth
of nanoseconds only behind the last second of a minute. -/
structure Valid (t : Instant) : Prop where
  inRange : inRange t.date.year = true
  nanos : t.nanos < 2 * nanosPerSecond
  leap : nanosPerSecond ≤ t.nanos → t.seconds % 60 = 59

/-! ### Numbers -/

lemma toList_padded (width n : Nat) : (padded width n).toList =
    List.replicate (width - (digitChars n).length) '0' ++ digitChars n := by
  have h : (toString n).toList = digitChars n := Nat.toList_repr
  unfold padded
  dsimp only
  rw [h, String.toList_ofList]

lemma allDigits_padded (width n : Nat) : AllDigits (padded width n).toList := by
  intro c hc
  rw [toList_padded] at hc
  rcases List.mem_append.mp hc with hc | hc
  · rw [List.eq_of_mem_replicate hc]; rfl
  · exact allDigits_digitChars n c hc

lemma padded_ne_nil (width n : Nat) : (padded width n).toList ≠ [] := by
  rw [toList_padded]
  exact List.append_ne_nil_of_right_ne_nil _ (digitChars_ne_nil n)

lemma natOfDigits_padded (width n : Nat) : natOfDigits (padded width n).toList = n := by
  rw [toList_padded, natOfDigits_zeros, natOfDigits_digitChars]

lemma length_padded {width n : Nat} (hw : 0 < width) (h : n < 10 ^ width) :
    (padded width n).toList.length = width := by
  have hlen : (digitChars n).length ≤ width :=
    (Nat.length_toDigits_le_iff (by decide) hw).mpr h
  rw [toList_padded, List.length_append, List.length_replicate]
  omega

lemma trimStart_of_not_blank {c : Char} (h : isBlank c = false) (s : List Char) :
    trimStart (c :: s) = c :: s :=
  List.dropWhile_cons_of_neg (by simp [h])

lemma exists_cons_padded (width n : Nat) (rest : List Char) : ∃ d s,
    isAsciiDigit d = true ∧ isBlank d = false ∧ (padded width n).toList ++ rest = d :: s := by
  obtain ⟨d, ds, hd⟩ := List.exists_cons_of_ne_nil (padded_ne_nil width n)
  have hdigit := allDigits_padded width n d (by rw [hd]; exact List.mem_cons_self)
  exact ⟨d, ds ++ rest, hdigit, isBlank_of_isAsciiDigit hdigit, by rw [hd]; rfl⟩

lemma trimStart_padded (width n : Nat) (rest : List Char) :
    trimStart ((padded width n).toList ++ rest) = (padded width n).toList ++ rest := by
  obtain ⟨d, s, -, hblank, heq⟩ := exists_cons_padded width n rest
  rw [heq, trimStart_of_not_blank hblank]

lemma readNumber_padded {width n : Nat} (hw : 0 < width) (h : n < 10 ^ width) (rest : List Char) :
    readNumber width ((padded width n).toList ++ rest) = some (n, rest) := by
  have htake : ((padded width n).toList ++ rest).take width = (padded width n).toList := by
    rw [List.take_append_of_le_length (length_padded hw h).ge,
      List.take_of_length_le (length_padded hw h).le]
  have hall : (padded width n).toList.takeWhile isAsciiDigit = (padded width n).toList :=
    List.takeWhile_eq_self_iff.mpr (allDigits_padded width n)
  unfold readNumber
  rw [trimStart_padded]
  dsimp only
  rw [htake, hall, if_neg (by simpa using padded_ne_nil width n), natOfDigits_padded,
    List.drop_left]

lemma readMark_cons {c : Char} (h : isBlank c = false) (rest : List Char) :
    readMark c (c :: rest) = some rest := by
  unfold readMark
  rw [trimStart_of_not_blank h]
  simp

/-! ### Dates -/

/-- The digits of a number behind a sign or a point, read up to their end. -/
lemma digits_padded {α : Type} (width n : Nat) {rest : List Char}
    (hr : rest.head?.any isAsciiDigit = false) (f : List Char → α) :
    (let s := (padded width n).toList ++ rest
      let ds := s.takeWhile isAsciiDigit
      if ds.isEmpty then none else some (f ds, s.drop ds.length)) =
      some (f (padded width n).toList, rest) := by
  dsimp only
  rw [takeWhile_append (allDigits_padded width n) hr,
    if_neg (by simpa using padded_ne_nil width n), List.drop_left]

lemma readYear_minus (n : Nat) {rest : List Char} (hr : rest.head?.any isAsciiDigit = false) :
    readYear (("-" ++ padded 4 n).toList ++ rest) = some (-(n : Int), rest) := by
  rw [String.toList_append]
  refine (digits_padded 4 n hr fun ds => -(natOfDigits ds : Int)).trans ?_
  rw [natOfDigits_padded]

lemma readYear_plus (n : Nat) {rest : List Char} (hr : rest.head?.any isAsciiDigit = false) :
    readYear (("+" ++ padded 4 n).toList ++ rest) = some ((n : Int), rest) := by
  rw [String.toList_append]
  refine (digits_padded 4 n hr fun ds => (natOfDigits ds : Int)).trans ?_
  rw [natOfDigits_padded]

lemma readYear_yearText (y : Int) {rest : List Char} (hr : rest.head?.any isAsciiDigit = false) :
    readYear ((yearText y).toList ++ rest) = some (y, rest) := by
  unfold yearText
  split_ifs with h hneg
  · have hlt : y.toNat < 10 ^ 4 := by omega
    have hread := readNumber_padded (Nat.succ_pos 3) hlt rest
    obtain ⟨d, s, hdigit, -, heq⟩ := exists_cons_padded 4 y.toNat rest
    have hy : (y.toNat : Int) = y := by omega
    unfold readYear
    rw [trimStart_padded]
    rw [heq] at hread ⊢
    split
    next hd => rw [(List.cons.inj hd).1] at hdigit; exact absurd hdigit (by decide)
    next hd => rw [(List.cons.inj hd).1] at hdigit; exact absurd hdigit (by decide)
    next => rw [hread, Option.map_some, ← hy]; rfl
  · rw [readYear_minus _ hr]
    exact congrArg (fun z => some (z, rest)) (by omega)
  · rw [readYear_plus _ hr]
    exact congrArg (fun z => some (z, rest)) (by omega)

lemma readDate_text (d : Date) (hm : d.month < 100) (hd : d.day < 100) {c : Char}
    (rest : List Char) :
    readDate ((yearText d.year).toList ++ '-' :: ((padded 2 d.month).toList ++
      '-' :: ((padded 2 d.day).toList ++ c :: rest))) = some (d, c :: rest) := by
  unfold readDate
  rw [readYear_yearText d.year (by rfl)]
  simp only [Option.bind_eq_bind, Option.bind_some]
  rw [readMark_cons (by decide), Option.bind_some, readNumber_padded (by decide) hm,
    Option.bind_some]
  dsimp only
  rw [readMark_cons (by decide), Option.bind_some, readNumber_padded (by decide) hd,
    Option.bind_some]

/-! ### Times -/

lemma readFraction_padded {width n : Nat} (hw : 0 < width) (hw' : width ≤ 9) (hn : n < 10 ^ width)
    {rest : List Char} (hr : rest.head?.any isAsciiDigit = false) :
    readFraction (("." ++ padded width n).toList ++ rest) =
      some (n * Nat.pow 10 (9 - width), rest) := by
  have hlen := length_padded hw hn
  have htake : (padded width n).toList.take 9 = (padded width n).toList :=
    List.take_of_length_le (by omega)
  rw [String.toList_append]
  refine (digits_padded width n hr fun ds =>
    natOfDigits (ds.take 9) * Nat.pow 10 (9 - (ds.take 9).length)).trans ?_
  rw [htake, natOfDigits_padded, hlen]

lemma readFraction_fractionText {nanos : Nat} (h : nanos < nanosPerSecond) {c : Char}
    (hc : isAsciiDigit c = false) (hpoint : c ≠ '.') (rest : List Char) :
    readFraction ((fractionText nanos).toList ++ c :: rest) = some (nanos, c :: rest) := by
  have hr : (c :: rest).head?.any isAsciiDigit = false := hc
  unfold nanosPerSecond at h
  unfold fractionText
  split_ifs with h0 h3 h6
  · subst h0
    unfold readFraction
    split
    next heq => exact absurd (List.cons.inj heq).1 hpoint
    next => rfl
  · rw [readFraction_padded (by decide) (by decide) (by omega) hr]
    have hpow : Nat.pow 10 (9 - 3) = 1000000 := rfl
    rw [hpow, Nat.div_mul_cancel (Nat.dvd_of_mod_eq_zero h3)]
  · rw [readFraction_padded (by decide) (by decide) (by omega) hr]
    have hpow : Nat.pow 10 (9 - 6) = 1000 := rfl
    rw [hpow, Nat.div_mul_cancel (Nat.dvd_of_mod_eq_zero h6)]
  · rw [readFraction_padded (by decide) (by decide) (by omega) hr]
    simp

lemma readTime_text {hour minute second nanos : Nat} (hh : hour ≤ 23) (hm : minute ≤ 59)
    (hs : second ≤ 60) (hn : nanos < nanosPerSecond) (rest : List Char) :
    readTime ((padded 2 hour).toList ++ ':' :: ((padded 2 minute).toList ++
      ':' :: ((padded 2 second).toList ++ ((fractionText nanos).toList ++ 'Z' :: rest)))) =
      some ((hour * 3600 + minute * 60 + (if second = 60 then 59 else second),
        if second = 60 then nanos + nanosPerSecond else nanos), 'Z' :: rest) := by
  unfold readTime
  simp only [Option.bind_eq_bind]
  rw [readNumber_padded (by decide) (by omega), Option.bind_some]
  dsimp only
  rw [readMark_cons (by decide), Option.bind_some, readNumber_padded (by decide) (by omega),
    Option.bind_some]
  dsimp only
  rw [readMark_cons (by decide), Option.bind_some, readNumber_padded (by decide) (by omega),
    Option.bind_some]
  dsimp only
  rw [readFraction_fractionText hn (by decide) (by decide), Option.bind_some]
  dsimp only
  rw [if_neg (by omega)]
  split_ifs <;> rfl

/-! ### Points in time -/

lemma toList_render (t : Instant) : t.render.toList =
    (yearText t.date.year).toList ++ '-' :: ((padded 2 t.date.month).toList ++
      '-' :: ((padded 2 t.date.day).toList ++
        'T' :: ((padded 2 (t.secondOfDay / 3600)).toList ++
          ':' :: ((padded 2 (t.secondOfDay / 60 % 60)).toList ++
            ':' :: ((padded 2 (t.secondOfDay % 60 + t.nanos / nanosPerSecond)).toList ++
              ((fractionText (t.nanos % nanosPerSecond)).toList ++ ['Z'])))))) := by
  unfold render clockText
  simp [String.toList_append]

lemma clock_eq {t : Instant} (h : t.Valid) :
    t.secondOfDay / 3600 ≤ 23 ∧ t.secondOfDay % 60 + t.nanos / nanosPerSecond ≤ 60 ∧
      t.secondOfDay / 3600 * 3600 + t.secondOfDay / 60 % 60 * 60 +
        (if t.secondOfDay % 60 + t.nanos / nanosPerSecond = 60 then 59
          else t.secondOfDay % 60 + t.nanos / nanosPerSecond) = t.secondOfDay ∧
      (if t.secondOfDay % 60 + t.nanos / nanosPerSecond = 60
        then t.nanos % nanosPerSecond + nanosPerSecond
        else t.nanos % nanosPerSecond) = t.nanos := by
  have hday : t.secondOfDay < 86400 := by
    unfold secondOfDay secondsPerDay
    omega
  have hminute : t.secondOfDay % 60 = (t.seconds % 60).toNat := by
    unfold secondOfDay secondsPerDay
    omega
  have hnanos := h.nanos
  have hleap := h.leap
  unfold nanosPerSecond at *
  generalize t.secondOfDay = s at *
  generalize t.nanos = n at *
  by_cases hn : 1000000000 ≤ n
  · have hone : n / 1000000000 = 1 := by omega
    have hlast : s % 60 = 59 := by have := hleap hn; omega
    rw [hone, hlast, if_pos rfl, if_pos rfl]
    omega
  · have hzero : n / 1000000000 = 0 := by omega
    rw [hzero, if_neg (by omega), if_neg (by omega)]
    omega

lemma daysInMonth_le (y : Int) (m : Nat) : daysInMonth y m ≤ 31 := by
  unfold daysInMonth
  split_ifs <;> decide

/-- **A point in time that can be told** is read back from its text. -/
theorem read?_render {t : Instant} (h : t.Valid) : read? t.render = some t := by
  have hvalid : t.date.isValid = true := isValid_ofDays h.inRange
  obtain ⟨hmonth, hday⟩ : t.date.month < 100 ∧ t.date.day < 100 := by
    have hbound := daysInMonth_le t.date.year t.date.month
    unfold Date.isValid at hvalid
    simp only [Bool.and_eq_true, decide_eq_true_eq] at hvalid
    omega
  obtain ⟨hhour, hsecond, hclock, hnanos⟩ := clock_eq h
  have hdays : t.date.days = t.seconds / secondsPerDay := days_ofDays _
  unfold read?
  rw [toList_render]
  simp only [Option.bind_eq_bind]
  rw [readDate_text _ hmonth hday, Option.bind_some]
  dsimp only
  have hoffset : readOffset ['Z'] = some (0, []) := rfl
  have hsecond' : (t.secondOfDay : Int) = t.seconds % secondsPerDay := by
    unfold secondOfDay secondsPerDay
    omega
  have ht : (⟨t.date.days * secondsPerDay + t.secondOfDay - 0, t.nanos⟩ : Instant) = t := by
    rw [hdays, hsecond', Int.sub_zero, Int.ediv_mul_add_emod]
  rw [readTime_text hhour (by omega) hsecond (Nat.mod_lt _ (by decide)), hclock, hnanos]
  simp only [Option.bind_some, hoffset, hvalid, ht, h.inRange]
  rfl

/-! ### What can be read can be told -/

lemma lt_of_readFraction {s rest : List Char} {nanos : Nat}
    (h : readFraction s = some (nanos, rest)) : nanos < nanosPerSecond := by
  unfold readFraction at h
  split at h
  next r =>
    dsimp only at h
    split_ifs at h
    simp only [Option.some.injEq, Prod.mk.injEq] at h
    rw [← h.1]
    generalize hns : (r.takeWhile isAsciiDigit).take 9 = ns
    have hdigits : AllDigits ns := by
      intro c hc
      rw [← hns] at hc
      exact List.mem_takeWhile_imp (List.mem_of_mem_take hc)
    have hlen : ns.length ≤ 9 := by
      rw [← hns, List.length_take]
      omega
    have hpow : 10 ^ ns.length * 10 ^ (9 - ns.length) = nanosPerSecond := by
      rw [← Nat.pow_add, Nat.add_sub_cancel' hlen]
      rfl
    rw [← hpow]
    exact Nat.mul_lt_mul_of_pos_right (natOfDigits_lt hdigits) (Nat.pow_pos (by decide))
  next =>
    cases h
    decide

lemma leap_of_readTime {s rest : List Char} {second nanos : Nat}
    (h : readTime s = some ((second, nanos), rest)) :
    nanos < 2 * nanosPerSecond ∧ (nanosPerSecond ≤ nanos → second % 60 = 59) := by
  simp only [readTime, Option.bind_eq_bind, Option.bind_eq_some_iff] at h
  obtain ⟨⟨hour, s1⟩, -, s2, -, ⟨minute, s3⟩, -, s4, -, ⟨sec, s5⟩, -, ⟨ns, s6⟩, hn, h⟩ := h
  have hns := lt_of_readFraction hn
  dsimp only at h
  split at h
  · cases h
  · split_ifs at h with hsec
    · simp only [Option.some.injEq, Prod.mk.injEq] at h
      omega
    · simp only [Option.some.injEq, Prod.mk.injEq] at h
      omega

lemma offset_of_readOffset {s rest : List Char} {offset : Int}
    (h : readOffset s = some (offset, rest)) : offset % 60 = 0 := by
  unfold readOffset at h
  dsimp only at h
  split at h
  · cases h; rfl
  · split at h
    · cases h
    · split at h
      · cases h; rfl
      · split at h
        · simp only [Option.bind_eq_bind, Option.bind_eq_some_iff] at h
          obtain ⟨⟨hours, r1⟩, -, ⟨minutes, r2⟩, -, h⟩ := h
          dsimp only at h
          split at h
          · cases h
          · simp only [Option.some.injEq, Prod.mk.injEq] at h
            rw [← h.1]
            split_ifs <;> omega
        · cases h

/-- **A point in time that is read from a text** can be told. -/
theorem valid_of_read? {text : String} {t : Instant} (h : read? text = some t) : t.Valid := by
  simp only [read?, Option.bind_eq_bind, Option.bind_eq_some_iff] at h
  obtain ⟨⟨date, s⟩, -, h⟩ := h
  dsimp only at h
  split at h
  · cases h
  · split at h
    · cases h
    · simp only [Option.bind_eq_some_iff] at h
      obtain ⟨⟨⟨second, nanos⟩, s1⟩, htime, ⟨offset, s2⟩, hoffset, h⟩ := h
      dsimp only at h
      split at h
      · cases h
      · split_ifs at h with hrange
        cases h
        obtain ⟨hnanos, hleap⟩ := leap_of_readTime htime
        have hminutes := offset_of_readOffset hoffset
        refine ⟨hrange, hnanos, fun hn => ?_⟩
        have := hleap hn
        unfold secondsPerDay
        dsimp only
        omega

end Tariff.Instant
