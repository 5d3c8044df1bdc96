import Mathlib.Algebra.Group.Nat.Defs
import Mathlib.Tactic.Common
import Tariff.Proofs.Lists
import Tariff.Proofs.Text.Trim
import Tariff.Text.Case

/-!
Upper case is a normal form: a text in upper case is its own upper case, and it has no blanks at
its ends if the text it comes from has none.

That no image of the case table is mapped again is one comparison of two sets of code points, each
held in the bits of a number.
-/

namespace Tariff.Text

/-! ### Sets of numbers in the bits of one -/

def bitSet (ns : List Nat) : Nat := ns.foldr (fun n s => 2 ^ n ||| s) 0

lemma testBit_bitSet {ns : List Nat} {n : Nat} : (bitSet ns).testBit n = true ↔ n ∈ ns := by
  induction ns with
  | nil => simp [bitSet]
  | cons m ns ih =>
    have h : bitSet (m :: ns) = 2 ^ m ||| bitSet ns := rfl
    rw [h, Nat.testBit_or, Bool.or_eq_true, ih, Nat.testBit_two_pow, List.mem_cons,
      decide_eq_true_eq, eq_comm]

lemma not_mem_of_land_eq_zero {xs ys : List Nat} (h : bitSet xs &&& bitSet ys = 0) {n : Nat}
    (hx : n ∈ xs) : n ∉ ys := by
  intro hy
  have hn : (bitSet xs &&& bitSet ys).testBit n = true := by
    rw [Nat.testBit_and, testBit_bitSet.mpr hx, testBit_bitSet.mpr hy]; rfl
  rw [h, Nat.zero_testBit] at hn
  exact Bool.noConfusion hn

/-! ### Runs of the case table -/

namespace CaseRun

def steps (r : CaseRun) : List Nat :=
  (List.range ((r.last - r.first) / r.step + 1)).map (r.step * ·)

def sources (r : CaseRun) : List Nat := r.steps.map (r.first + ·)

def images (r : CaseRun) : List Nat := r.steps.map (r.image + ·)

lemma mem_steps {r : CaseRun} {n : Nat} (h1 : r.first ≤ n) (h2 : n ≤ r.last)
    (h3 : (n - r.first) % r.step = 0) : n - r.first ∈ r.steps := by
  refine List.mem_map.mpr ⟨(n - r.first) / r.step, ?_, ?_⟩
  · exact List.mem_range.mpr (Nat.lt_succ_of_le (Nat.div_le_div_right (by omega)))
  · exact Nat.mul_div_cancel' (Nat.dvd_of_mod_eq_zero h3)

end CaseRun

lemma caseImage?_mem {table : List CaseRun} {n m : Nat} (h : caseImage? table n = some m) :
    m ∈ table.flatMap CaseRun.images := by
  obtain ⟨r, hr, rfl⟩ := Option.map_eq_some_iff.mp h
  obtain ⟨⟨h1, h2⟩, h3⟩ := by simpa using List.find?_some hr
  exact List.mem_flatMap.mpr ⟨r, List.mem_of_find?_eq_some hr,
    List.mem_map.mpr ⟨_, CaseRun.mem_steps h1 h2 h3, rfl⟩⟩

lemma caseImage?_eq_none {table : List CaseRun} {n : Nat}
    (h : n ∉ table.flatMap CaseRun.sources) : caseImage? table n = none := by
  unfold caseImage?
  rw [List.find?_eq_none.mpr, Option.map_none]
  intro r hr hm
  obtain ⟨⟨h1, h2⟩, h3⟩ := by simpa using hm
  exact h (List.mem_flatMap.mpr ⟨r, hr,
    List.mem_map.mpr ⟨_, CaseRun.mem_steps h1 h2 h3, Nat.add_sub_cancel' h1⟩⟩)

/-! ### What the table says -/

def lowers : List Nat :=
  List.range' 97 26 ++ (upperRuns.flatMap CaseRun.sources ++ upperSequences.map (·.1))

def uppers : List Nat := upperRuns.flatMap CaseRun.images ++ upperSequences.flatMap (·.2)

lemma uppers_disjoint : bitSet uppers &&& bitSet lowers = 0 := by decide +kernel

def isInk (n : Nat) : Bool :=
  (Nat.blt n 0xD800 || (Nat.ble 0xE000 n && Nat.blt n 0x110000)) && !isBlank (Char.ofNat n)

lemma uppers_ink : uppers.all isInk = true := by decide +kernel

structure Plain (c : Char) : Prop where
  upper : upperChar c = [c]
  ink : isBlank c = false

lemma toUpper_of_not_lower : ∀ n < 128, n ∉ List.range' 97 26 →
    (Char.ofNat n).toUpper = Char.ofNat n := by
  decide +kernel

lemma upperChar_of_not_lower {c : Char} (h : c.toNat ∉ lowers) : upperChar c = [c] := by
  simp only [lowers, List.mem_append, not_or] at h
  obtain ⟨h1, h2, h3⟩ := h
  have hs : upperSequences.lookup c.toNat = none := by
    rw [List.lookup_eq_none_iff]
    intro p hp
    exact bne_iff_ne.mpr fun e => h3 (List.mem_map.mpr ⟨p, hp, e.symm⟩)
  unfold upperChar
  split_ifs with hc
  · have := toUpper_of_not_lower c.toNat hc h1
    rw [Char.ofNat_toNat] at this
    rw [this]
  · rw [hs, caseImage?_eq_none h2]
    rfl

lemma toNat_ofNat {n : Nat} (h : n.isValidChar) : (Char.ofNat n).toNat = n := by
  rw [Char.ofNat, dif_pos h]
  rfl

lemma plain_of_mem_uppers {n : Nat} (h : n ∈ uppers) : Plain (Char.ofNat n) := by
  have hi : isInk n = true := List.all_eq_true.mp uppers_ink n h
  simp only [isInk, Bool.and_eq_true, Bool.or_eq_true, Nat.blt_eq, Nat.ble_eq,
    Bool.not_eq_true'] at hi
  refine ⟨upperChar_of_not_lower ?_, hi.2⟩
  rw [toNat_ofNat (by unfold Nat.isValidChar; omega)]
  exact not_mem_of_land_eq_zero uppers_disjoint h

lemma upperSequences_nonempty : ∀ p ∈ upperSequences, p.2 ≠ [] := by decide +kernel

lemma toUpper_cases : ∀ n < 128, (Char.ofNat n).toUpper = Char.ofNat n ∨
    upperChar (Char.ofNat n).toUpper = [(Char.ofNat n).toUpper] ∧
      isBlank (Char.ofNat n).toUpper = false := by
  decide +kernel

/-! ### Upper case of a text -/

/-- A character stays as it is, or becomes plain ones. -/
lemma upperChar_cases (c : Char) :
    upperChar c = [c] ∨ upperChar c ≠ [] ∧ ∀ d ∈ upperChar c, Plain d := by
  unfold upperChar
  split_ifs with hc
  · have h := toUpper_cases c.toNat hc
    rw [Char.ofNat_toNat] at h
    rcases h with h | ⟨h1, h2⟩
    · exact .inl (by rw [h])
    · exact .inr ⟨by simp, by simpa using ⟨h1, h2⟩⟩
  · split
    next image h =>
      have hm := mem_of_lookup_eq_some h
      refine .inr ⟨?_, ?_⟩
      · simpa using upperSequences_nonempty _ hm
      · intro d hd
        obtain ⟨n, hn, rfl⟩ := List.mem_map.mp hd
        exact plain_of_mem_uppers
          (List.mem_append_right _ (List.mem_flatMap.mpr ⟨_, hm, hn⟩))
    next =>
      cases h : caseImage? upperRuns c.toNat with
      | none => exact .inl rfl
      | some n =>
        refine .inr ⟨by simp, ?_⟩
        simpa using plain_of_mem_uppers (List.mem_append_left _ (caseImage?_mem h))

lemma upperChar_ne_nil (c : Char) : upperChar c ≠ [] := by
  rcases upperChar_cases c with h | ⟨h, -⟩
  · simp [h]
  · exact h

lemma flatMap_upperChar (c : Char) : (upperChar c).flatMap upperChar = upperChar c := by
  rcases upperChar_cases c with h | ⟨-, h⟩
  · simp [h]
  · rw [List.flatMap_congr fun d hd => (h d hd).upper, List.flatMap_singleton']

lemma upper_upper (s : List Char) : upper (upper s) = upper s := by
  unfold upper
  rw [List.flatMap_assoc]
  exact List.flatMap_congr fun c _ => flatMap_upperChar c

lemma ink_of_mem_upperChar {c d : Char} (h : isBlank c = false) (hd : d ∈ upperChar c) :
    isBlank d = false := by
  rcases upperChar_cases c with hc | ⟨-, hc⟩
  · rw [hc, List.mem_singleton] at hd
    rwa [hd]
  · exact (hc d hd).ink

lemma Trimmed.upper {s : List Char} (h : Trimmed s) : Trimmed (upper s) where
  head := by
    rcases s with - | ⟨c, cs⟩
    · simp [Text.upper]
    · obtain ⟨d, ds, hd⟩ := List.exists_cons_of_ne_nil (upperChar_ne_nil c)
      have hc : isBlank c = false := h.head c rfl
      simpa [Text.upper, hd] using ink_of_mem_upperChar hc (by simp [hd] : d ∈ upperChar c)
  last := by
    rcases s.eq_nil_or_concat with rfl | ⟨cs, c, rfl⟩
    · simp [Text.upper]
    · have hc : isBlank c = false := h.last c (by simp)
      intro d hd
      have hl : (upperChar c).getLast? = some d := by
        have hu : Text.upper (cs ++ [c]) = Text.upper cs ++ upperChar c := by simp [Text.upper]
        rw [List.concat_eq_append, hu] at hd
        rwa [List.getLast?_append_of_ne_nil _ (upperChar_ne_nil c)] at hd
      exact ink_of_mem_upperChar hc (List.mem_of_getLast? hl)

end Tariff.Text
