import Tariff.Proofs.Decimal.Unit
import Tariff.Proofs.Rate.Prices

/-!
Counts, units and divisors as they are written. A unit is one word or two, and the word `per` of a
second divisor is no second word: behind it, or behind a part of it, nothing that a divisor begins
with is found. So what stands behind the separator of a rate is read as it was written.
-/

namespace Tariff.Rate

open Tariff.Text Tariff.Decimal

/-! ### Spellings -/

/-- A numeral with a value that an amount can be divided by. -/
structure Divides (k : List Char) (y : Float) : Prop where
  numeral : isNumeral k = true
  value : numeralValue? k = some y
  pos : 0 < y

/-- A count of units, or nothing, with the numbers to divide by. -/
inductive CountText : List Char → List Float → Prop where
  | missing : CountText [] []
  | given {k b : List Char} {y : Float} (hk : Divides k y) (hb : Blanks b) : CountText (k ++ b) [y]

inductive DivisorText : List Char → List Float → Prop where
  | missing : DivisorText [] []
  | given {s k : List Char} {y : Float} (hs : SeparatorText s) (hk : Divides k y) :
      DivisorText (s ++ k) [y]

structure IsUnitWord (w : List Char) : Prop where
  start : w.head?.any isUnitStart = true
  all : ∀ c ∈ w, isUnitChar c = true

/-- One unit word, or two with a blank between them. -/
inductive UnitText : List Char → Prop where
  | one {w : List Char} (hw : IsUnitWord w) : UnitText w
  | two {v w : List Char} {c : Char} (hv : IsUnitWord v) (hc : isBlank c = true)
      (hw : IsUnitWord w) : UnitText (v ++ c :: w)

lemma UnitText.head? {u : List Char} (hu : UnitText u) (t : List Char) :
    (u ++ t).head?.any isUnitStart = true := by
  cases hu with
  | one hw => exact any_head?_append hw.start t
  | two hv _ _ =>
    rw [List.append_assoc]
    exact any_head?_append hv.start _

/-! ### Divisors -/

lemma Divides.divide?_eq {k : List Char} {y : Float} (h : Divides k y) (x : Float) :
    divide? x k = some (x / y) := by
  have hpos : ¬y ≤ 0 := fun hle => not_lt_of_le hle h.pos
  unfold divide?
  rw [h.value]
  exact if_neg hpos

lemma foldlM_divide? {ks : List (List Char)} {ys : List Float} (h : List.Forall₂ Divides ks ys)
    (x : Float) : ks.foldlM divide? x = some (ys.foldl (· / ·) x) := by
  induction h generalizing x with
  | nil => rfl
  | cons hk _ ih =>
    rw [List.foldlM_cons, hk.divide?_eq]
    exact ih _

section

variable {d : List Char} {ds : List Float}

lemma DivisorText.head? (hd : DivisorText d ds) {p : Char → Bool}
    (hblank : ∀ c, isBlank c = true → p c = false) (hslash : p '/' = false) :
    d.head?.any p = false := by
  cases hd with
  | missing => rfl
  | @given s k y hs hk => exact any_head?_of_border hblank hslash (hs.head? k)

/-- A second divisor is read as it was written. -/
lemma DivisorText.exists_readDivisor (hd : DivisorText d ds) (before : Option Char) :
    ∃ n : Option (List Char), readDivisor before d = some n ∧ List.Forall₂ Divides n.toList ds := by
  cases hd with
  | missing => exact ⟨none, rfl, .nil⟩
  | @given s k y hs hk =>
    have hblank : (k ++ []).head?.any isBlank = false :=
      any_head?_of_imp (fun _ => isBlank_of_isNumeralChar) (head?_of_isNumeral hk.numeral [])
    rw [List.append_nil] at hblank
    have htake : takeNumeral (k ++ []) = some (k, []) := takeNumeral_append hk.numeral rfl
    rw [List.append_nil] at htake
    refine ⟨some k, ?_, .cons hk .nil⟩
    unfold readDivisor
    rw [hs.isEmpty_append k, hs.separator_eq hblank, Option.bind_eq_bind, Option.bind_some, htake]
    rfl

/-- So is one without the blanks in front of it. -/
lemma readDivisor_trimStart (hd : DivisorText d ds) (before : Option Char) :
    readDivisor (if d.head?.any isBlank then d.head? else before) (trimStart d) =
      readDivisor before d := by
  unfold readDivisor
  rw [separator_trimStart]
  cases hd with
  | missing => rfl
  | @given s k y hs hk =>
    have htrim : (trimStart (s ++ k)).isEmpty = false := by
      rcases hs.trimStart_eq k with ⟨b', -, h⟩ | ⟨b', -, -, h⟩ <;> rw [h] <;> rfl
    rw [hs.isEmpty_append k, htrim]

lemma readDivisor_eq_none {text : List Char} (hne : text ≠ [])
    (h : (trimStart text).head?.any (fun c => c == '/' || c == 'p') = false)
    (before : Option Char) : readDivisor before text = none := by
  unfold readDivisor
  rw [List.isEmpty_eq_false_iff.mpr hne, separator_eq_none h]
  rfl

end

/-! ### Units -/

lemma unitWords_of_not {text : List Char} (h : text.head?.any isUnitStart = false) :
    unitWords text = [] := by
  unfold unitWords
  rw [h]
  rfl

/-- The longest unit word comes first. -/
lemma exists_unitWords {w t : List Char} (hw : IsUnitWord w)
    (ht : t.head?.any isUnitChar = false) : ∃ shorter, unitWords (w ++ t) = (w, t) :: shorter := by
  have hne : w ≠ [] := by
    rintro rfl
    exact absurd hw.start (by decide)
  obtain ⟨n, hn⟩ := Nat.exists_eq_succ_of_ne_zero (List.length_pos_iff.mpr hne).ne'
  unfold unitWords
  rw [if_pos (any_head?_append hw.start t), takeWhile_append hw.all ht]
  dsimp only
  rw [hn, List.range_succ_eq_map, List.map_cons, ← hn, Nat.sub_zero, List.take_left,
    List.drop_left]
  exact ⟨_, rfl⟩

lemma unitWords_per {b : List Char} (hne : b ≠ []) (hb : Blanks b) (t : List Char) :
    unitWords ("per".toList ++ (b ++ t)) = [("per".toList, b ++ t), ("pe".toList, 'r' :: (b ++ t)),
      ("p".toList, 'e' :: 'r' :: (b ++ t))] := by
  have hend : (b ++ t).head?.any isUnitChar = false :=
    any_head?_of_imp (fun _ => isUnitChar_of_isBlank) (hb.any_head? hne t)
  have hall : ∀ c ∈ "per".toList, isUnitChar c = true := forall_mem_of_all (by decide)
  unfold unitWords
  rw [takeWhile_append hall hend]
  rfl

lemma isUnitStart_of_blanks {b k : List Char} (hb : Blanks b) (hk : isNumeral k = true) :
    (b ++ k).head?.any isUnitStart = false := by
  rcases eq_or_ne b [] with rfl | hne
  · have := head?_of_isNumeral hk []
    rw [List.append_nil] at this
    exact any_head?_of_imp (fun _ => isUnitStart_of_isNumeralChar) this
  · exact any_head?_of_imp (fun _ => isUnitStart_of_isBlank) (hb.any_head? hne k)

lemma unitNames_per {b k : List Char} (hne : b ≠ []) (hb : Blanks b) (hk : isNumeral k = true) :
    unitNames ("per".toList ++ (b ++ k)) = unitWords ("per".toList ++ (b ++ k)) := by
  obtain ⟨c, cs, rfl⟩ := List.exists_cons_of_ne_nil hne
  obtain ⟨hc, hcs⟩ := List.forall_mem_cons.mp hb
  have hnone : unitWords (cs ++ k) = [] := unitWords_of_not (isUnitStart_of_blanks hcs hk)
  have hr : isBlank 'r' = false := by decide
  have he : isBlank 'e' = false := by decide
  unfold unitNames
  rw [unitWords_per hne hb]
  simp [hc, hnone, hr, he]

/-- Behind the word `per`, or a part of it, no divisor stands where a numeral follows. -/
lemma readDivisor_of_mem_unitWords {b k : List Char} (hne : b ≠ []) (hb : Blanks b)
    (hk : isNumeral k = true) {q : List Char × List Char}
    (hq : q ∈ unitWords ("per".toList ++ (b ++ k))) (before : Option Char) :
    readDivisor before q.2 = none := by
  rw [unitWords_per hne hb] at hq
  simp only [List.mem_cons, List.not_mem_nil, or_false] at hq
  rcases hq with rfl | rfl | rfl
  · refine readDivisor_eq_none (List.append_ne_nil_of_left_ne_nil hne k) ?_ before
    have hhead : k.head?.any isNumeralChar = true := by
      have := head?_of_isNumeral hk []
      rwa [List.append_nil] at this
    rw [trimStart_append hb (any_head?_of_imp (fun _ => isBlank_of_isNumeralChar) hhead)]
    refine any_head?_of_imp (fun c hc => ?_) hhead
    rw [Bool.or_eq_false_iff, beq_eq_false_iff_ne, beq_eq_false_iff_ne]
    constructor
    · rintro rfl
      exact absurd hc (by decide)
    · rintro rfl
      exact absurd hc (by decide)
  · exact readDivisor_eq_none (List.cons_ne_nil _ _) rfl before
  · exact readDivisor_eq_none (List.cons_ne_nil _ _) rfl before

lemma DivisorText.cases_of_blank {c : Char} {more : List Char} {ds : List Float}
    (hd : DivisorText (c :: more) ds) (hc : isBlank c = true) :
    more.head?.any isUnitStart = false ∨
      ∃ b k, b ≠ [] ∧ Blanks b ∧ isNumeral k = true ∧ more = "per".toList ++ (b ++ k) := by
  have hblanks {b : List Char} (hb : Blanks b) (hne : b ≠ []) (t : List Char) :
      (b ++ t).head?.any isUnitStart = false :=
    any_head?_of_imp (fun _ => isUnitStart_of_isBlank) (hb.any_head? hne t)
  generalize hd' : c :: more = d at hd
  cases hd with
  | missing => cases hd'
  | @given s k y hs hk =>
    cases hs with
    | @slash b b' hb hb' =>
      rw [List.append_assoc] at hd'
      cases b with
      | nil =>
        rw [(List.cons.inj hd').1] at hc
        exact absurd hc (by decide)
      | cons e es =>
        left
        rw [(List.cons.inj hd').2]
        rcases eq_or_ne es [] with rfl | hne
        · rfl
        · exact hblanks (List.forall_mem_cons.mp hb).2 hne _
    | @per b b' hne hb hne' hb' =>
      obtain ⟨e, es, rfl⟩ := List.exists_cons_of_ne_nil hne
      rw [List.append_assoc, List.append_assoc] at hd'
      rw [(List.cons.inj hd').2]
      rcases eq_or_ne es [] with rfl | hes
      · exact .inr ⟨b', k, hne', hb', hk.numeral, rfl⟩
      · exact .inl (hblanks (List.forall_mem_cons.mp hb).2 hes _)

/-- What follows a unit is no part of it. -/
lemma DivisorText.readDivisor_of_mem_tail {c : Char} {more : List Char} {ds : List Float}
    (hd : DivisorText (c :: more) ds) (hc : isBlank c = true) {q : List Char × List Char}
    (hq : q ∈ unitWords more) (before : Option Char) : readDivisor before q.2 = none := by
  rcases hd.cases_of_blank hc with h | ⟨b, k, hne, hb, hk, rfl⟩
  · rw [unitWords_of_not h] at hq
    cases hq
  · exact readDivisor_of_mem_unitWords hne hb hk hq before

lemma DivisorText.readDivisor_of_mem_unitNames {d : List Char} {ds : List Float}
    (hd : DivisorText d ds) {q : List Char × List Char} (hq : q ∈ unitNames (trimStart d))
    (before : Option Char) : readDivisor before q.2 = none := by
  cases hd with
  | missing => cases hq
  | @given s k y hs hk =>
    rcases hs.trimStart_eq k with ⟨b, -, h⟩ | ⟨b, hne, hb, h⟩
    · have hnone : unitWords ('/' :: (b ++ k)) = [] := unitWords_of_not rfl
      unfold unitNames at hq
      rw [h, hnone] at hq
      cases hq
    · rw [h, unitNames_per hne hb hk.numeral] at hq
      exact readDivisor_of_mem_unitWords hne hb hk.numeral hq before

/-! ### Behind the separator -/

section

variable {u d : List Char} {ds : List Float}

/-- A unit and a second divisor are read as they were written. -/
lemma UnitText.exists_named (hu : UnitText u) (hd : DivisorText d ds) (price : Price)
    (count : Option (List Char)) : ∃ n : Option (List Char), List.Forall₂ Divides n.toList ds ∧
      readUnits.named price count (u ++ d) = some ⟨price, count, some (String.ofList u), n⟩ := by
  obtain ⟨n, hn, hdivides⟩ := hd.exists_readDivisor u.getLast?
  refine ⟨n, hdivides, ?_⟩
  have hend : d.head?.any isUnitChar = false :=
    hd.head? (fun _ => isUnitChar_of_isBlank) (by decide)
  unfold readUnits.named unitNames
  cases hu with
  | one hw =>
    obtain ⟨shorter, hwords⟩ := exists_unitWords hw hend
    rw [hwords, List.flatMap_cons, List.findSome?_append, List.findSome?_append]
    -- a second word would be taken from the divisor
    rw [List.findSome?_eq_none_iff.mpr, Option.none_or, List.findSome?_cons]
    · dsimp only
      rw [hn]
      rfl
    · intro q hq
      dsimp only at hq
      split at hq
      next c more =>
        split_ifs at hq with hc
        · obtain ⟨r, hr, rfl⟩ := List.mem_map.mp hq
          dsimp only
          rw [hd.readDivisor_of_mem_tail hc hr]
          rfl
        · cases hq
      next => cases hq
  | @two v w c hv hc hw =>
    have hv' : (c :: (w ++ d)).head?.any isUnitChar = false := isUnitChar_of_isBlank hc
    obtain ⟨shorter, hwords⟩ := exists_unitWords hv hv'
    obtain ⟨shorter', hwords'⟩ := exists_unitWords hw hend
    rw [List.append_assoc, List.cons_append, hwords, List.flatMap_cons]
    dsimp only
    rw [if_pos hc, hwords', List.map_cons, List.cons_append, List.cons_append, List.findSome?_cons]
    dsimp only
    rw [hn]
    rfl

/-- So are a count, a unit and a second divisor. -/
lemma UnitText.exists_readUnits {k : List Char} {ks : List Float} (hk : CountText k ks)
    (hu : UnitText u) (hd : DivisorText d ds) (price : Price) :
    ∃ count n : Option (List Char), List.Forall₂ Divides (count.toList ++ n.toList) (ks ++ ds) ∧
      readUnits price (k ++ (u ++ d)) = some ⟨price, count, some (String.ofList u), n⟩ := by
  have hstart := hu.head? d
  unfold readUnits
  cases hk with
  | missing =>
    obtain ⟨n, hn, hnamed⟩ := hu.exists_named hd price none
    refine ⟨none, n, hn, ?_⟩
    rw [List.nil_append,
      takeNumeral_of_not (any_head?_of_imp (fun _ hc => (classes_of_isUnitStart hc).1) hstart)]
    exact hnamed
  | @given k b y hk hb =>
    obtain ⟨n, hn, hnamed⟩ := hu.exists_named hd price (some k)
    refine ⟨some k, n, .cons hk hn, ?_⟩
    have hend : (b ++ (u ++ d)).head?.any isNumeralChar = false := by
      rcases eq_or_ne b [] with rfl | hne
      · exact any_head?_of_imp (fun _ hc => (classes_of_isUnitStart hc).1) hstart
      · exact any_head?_of_imp (fun _ => isNumeralChar_of_isBlank) (hb.any_head? hne _)
    have htrim : trimStart (b ++ (u ++ d)) = u ++ d :=
      trimStart_append hb
        (any_head?_of_imp (fun _ hc => (classes_of_isUnitStart hc).2.1) hstart)
    rw [List.append_assoc, takeNumeral_append hk.numeral hend]
    dsimp only
    rw [htrim, hnamed]
    rfl

lemma Divides.exists_readUnits {k : List Char} {y : Float} (hk : Divides k y)
    (hd : DivisorText d ds) (price : Price) : ∃ n : Option (List Char),
      List.Forall₂ Divides n.toList ds ∧
      readUnits price (k ++ d) = some ⟨price, some k, none, n⟩ := by
  obtain ⟨n, hn, hdivides⟩ := hd.exists_readDivisor k.getLast?
  refine ⟨n, hdivides, ?_⟩
  have hend : d.head?.any isNumeralChar = false :=
    hd.head? (fun _ => isNumeralChar_of_isBlank) (by decide)
  have hnamed : readUnits.named price (some k) (trimStart d) = none :=
    List.findSome?_eq_none_iff.mpr fun q hq => by
      dsimp only
      rw [hd.readDivisor_of_mem_unitNames hq]
      rfl
  unfold readUnits
  rw [takeNumeral_append hk.numeral hend]
  dsimp only
  rw [hnamed, readDivisor_trimStart hd, hn]
  rfl

end

end Tariff.Rate
