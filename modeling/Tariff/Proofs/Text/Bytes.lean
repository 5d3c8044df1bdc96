import Mathlib.Data.Nat.Basic
import Mathlib.Data.String.Basic
import Mathlib.Tactic.Common

/-!
Texts in the order of their bytes. In UTF-8 a character of a later code point has the greater bytes:
its first byte says how many follow, and the bytes that follow are the digits of the code point to
the base 64. So the order of texts by code points is their order by bytes.
-/

namespace Tariff.Text

def bytes (s : String) : List UInt8 := s.toUTF8.data.toList

lemma bytes_eq (s : String) : bytes s = s.toList.flatMap String.utf8EncodeChar := by
  unfold bytes
  rw [String.toUTF8_eq_toByteArray, ← String.utf8Encode_toList, List.utf8Encode,
    List.toList_data_toByteArray]

/-! ### One character -/

/-- The last `k` digits of a number to the base 64, as bytes that go on a character. -/
def continuation : ℕ → ℕ → List UInt8
  | 0, _ => []
  | k + 1, v => UInt8.ofNat (v / 64 ^ k % 64 + 0x80) :: continuation k v

lemma cons_lt_cons {a b : ℕ} {s t : List UInt8} (ha : a < 256) (hb : b < 256)
    (h : a < b ∨ a = b ∧ s < t) : UInt8.ofNat a :: s < UInt8.ofNat b :: t := by
  rw [List.cons_lt_cons_iff]
  refine h.imp (fun hlt => ?_) (fun ⟨heq, hst⟩ => ⟨by rw [heq], hst⟩)
  rw [UInt8.lt_iff_toNat_lt, UInt8.toNat_ofNat_of_lt' ha, UInt8.toNat_ofNat_of_lt' hb]
  exact hlt

lemma continuation_lt {k v w : ℕ} (h : v % 64 ^ k < w % 64 ^ k) (s t : List UInt8) :
    continuation k v ++ s < continuation k w ++ t := by
  induction k with
  | zero => rw [Nat.pow_zero, Nat.mod_one, Nat.mod_one] at h; omega
  | succ k ih =>
    have hlow : v % 64 ^ k < 64 ^ k := Nat.mod_lt _ (Nat.pow_pos (by decide))
    rw [Nat.mod_pow_succ, Nat.mod_pow_succ] at h
    have hv : v / 64 ^ k % 64 < 64 := Nat.mod_lt _ (by decide)
    have hw : w / 64 ^ k % 64 < 64 := Nat.mod_lt _ (by decide)
    refine cons_lt_cons (by omega) (by omega) ?_
    rcases Nat.lt_trichotomy (v / 64 ^ k % 64) (w / 64 ^ k % 64) with hlt | heq | hgt
    · exact .inl (by omega)
    · rw [heq] at h
      exact .inr ⟨by rw [heq], ih (by omega)⟩
    · -- a greater leading digit makes up for all that follow
      have hmul : 64 ^ k * (w / 64 ^ k % 64 + 1) ≤ 64 ^ k * (v / 64 ^ k % 64) :=
        Nat.mul_le_mul_left _ hgt
      rw [Nat.mul_add, Nat.mul_one] at hmul
      omega

/-- The first byte of a code point and the number of bytes that follow. -/
inductive Leads : ℕ → ℕ → ℕ → Prop
  | one {v : ℕ} : v < 0x80 → Leads v v 0
  | two {v : ℕ} : 0x80 ≤ v → v < 0x800 → Leads v (v / 64 + 0xC0) 1
  | three {v : ℕ} : 0x800 ≤ v → v < 0x10000 → Leads v (v / 4096 + 0xE0) 2
  | four {v : ℕ} : 0x10000 ≤ v → v < 0x110000 → Leads v (v / 262144 + 0xF0) 3

lemma toNat_lt (c : Char) : c.toNat < 0x110000 := by
  have h : c.toNat.isValidChar := c.valid
  unfold Nat.isValidChar at h
  omega

lemma exists_leads (c : Char) : ∃ b k, Leads c.toNat b k ∧
    String.utf8EncodeChar c = UInt8.ofNat b :: continuation k c.toNat := by
  have hmax := toNat_lt c
  have heq : String.utf8EncodeChar c =
      if c.toNat ≤ 0x7f then [UInt8.ofNat c.toNat]
      else if c.toNat ≤ 0x7ff then UInt8.ofNat (c.toNat / 64 % 32 + 0xC0) :: continuation 1 c.toNat
      else if c.toNat ≤ 0xffff then
        UInt8.ofNat (c.toNat / 4096 % 16 + 0xE0) :: continuation 2 c.toNat
      else UInt8.ofNat (c.toNat / 262144 % 8 + 0xF0) :: continuation 3 c.toNat := by
    simp [String.utf8EncodeChar, continuation]
  rw [heq]
  split_ifs with h1 h2 h3
  · exact ⟨_, _, .one (by omega), rfl⟩
  · exact ⟨_, _, .two (by omega) (by omega), by rw [Nat.mod_eq_of_lt (by omega)]⟩
  · exact ⟨_, _, .three (by omega) (by omega), by rw [Nat.mod_eq_of_lt (by omega)]⟩
  · exact ⟨_, _, .four (by omega) (by omega), by rw [Nat.mod_eq_of_lt (by omega)]⟩

lemma Leads.lt {v b k : ℕ} (h : Leads v b k) : b < 256 := by
  cases h <;> omega

/-- Of two code points the later has the greater first byte, or the same, and then the greater
digits behind it. -/
lemma Leads.compare {v w a b j k : ℕ} (hv : Leads v a j) (hw : Leads w b k) (h : v < w) :
    a < b ∨ a = b ∧ j = k ∧ v % 64 ^ k < w % 64 ^ k := by
  cases hv <;> cases hw <;> omega

lemma utf8EncodeChar_lt {c d : Char} (h : c < d) (s t : List UInt8) :
    String.utf8EncodeChar c ++ s < String.utf8EncodeChar d ++ t := by
  obtain ⟨a, j, ha, hc⟩ := exists_leads c
  obtain ⟨b, k, hb, hd⟩ := exists_leads d
  have hlt : c.toNat < d.toNat := UInt32.lt_iff_toNat_lt.mp (Char.lt_def.mp h)
  rw [hc, hd]
  refine cons_lt_cons ha.lt hb.lt ?_
  rcases ha.compare hb hlt with hlead | ⟨hlead, rfl, hrest⟩
  · exact .inl hlead
  · exact .inr ⟨hlead, continuation_lt hrest s t⟩

/-! ### Texts -/

/-- **Texts that are in order by code points are in order by bytes.** -/
theorem bytes_lt {s t : String} (h : s < t) : bytes s < bytes t := by
  have hlex : s.toList < t.toList := h
  rw [bytes_eq, bytes_eq]
  generalize s.toList = l, t.toList = r at hlex
  induction hlex with
  | @nil c cs =>
    obtain ⟨b, k, -, hc⟩ := exists_leads c
    rw [List.flatMap_nil, List.flatMap_cons, hc]
    exact List.Lex.nil
  | rel hlt =>
    rw [List.flatMap_cons, List.flatMap_cons]
    exact utf8EncodeChar_lt hlt _ _
  | cons _ ih =>
    rw [List.flatMap_cons, List.flatMap_cons]
    exact List.append_left_lt ih

end Tariff.Text
