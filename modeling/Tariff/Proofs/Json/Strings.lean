import Mathlib.Tactic.Common
import Mathlib.Tactic.SplitIfs
import Tariff.Json.Printer
import Tariff.Json.Token

/-!
Strings of JSON texts. A string that is written is read as it was, whatever its characters.
-/

namespace Tariff.Json

/-- How a character that is written is read: as a code unit where it is escaped in figures. -/
def pieceOf (c : Char) : Piece :=
  if c.toNat < 32 ∧ c ∉ ['\x08', '\x0c', '\n', '\r', '\t'] then .unit c.toNat else .char c

lemma hexValue?_digitChar : ∀ n < 16, hexValue? (Nat.digitChar n) = some n := by
  decide

lemma unit?_digitChar {n : Nat} (h : n < 32) :
    unit? '0' '0' (Nat.digitChar (n / 16)) (Nat.digitChar (n % 16)) = some n := by
  have hzero : hexValue? '0' = some 0 := rfl
  unfold unit?
  rw [hzero, hexValue?_digitChar _ (by omega), hexValue?_digitChar _ (by omega)]
  simp only [Option.bind_eq_bind, Option.bind_some, Option.some.injEq]
  omega

lemma takeString_escape (c : Char) (cs : List Char) :
    takeString (escape c ++ cs) =
      (takeString cs).map fun (ps, k) => (pieceOf c :: ps, k + (escape c).length) := by
  by_cases hshort : c ∈ ['"', '\\', '\x08', '\x0c', '\n', '\r', '\t']
  · simp only [List.mem_cons, List.not_mem_nil, or_false] at hshort
    rcases hshort with rfl | rfl | rfl | rfl | rfl | rfl | rfl <;> rfl
  · simp only [List.mem_cons, List.not_mem_nil, or_false, not_or] at hshort
    obtain ⟨hquote, hslash, hb, hf, hn, hr, ht⟩ := hshort
    unfold escape
    rw [if_neg (mt eq_of_beq hquote), if_neg (mt eq_of_beq hslash), if_neg (mt eq_of_beq hb),
      if_neg (mt eq_of_beq hf), if_neg (mt eq_of_beq hn), if_neg (mt eq_of_beq hr),
      if_neg (mt eq_of_beq ht)]
    by_cases hcontrol : c.toNat < 32
    · have hpiece : pieceOf c = .unit c.toNat := if_pos ⟨hcontrol, by
        simp only [List.mem_cons, List.not_mem_nil, or_false, not_or]
        exact ⟨hb, hf, hn, hr, ht⟩⟩
      rw [hpiece, if_pos hcontrol]
      simp only [List.cons_append, List.nil_append]
      rw [takeString, unit?_digitChar hcontrol]
      rfl
    · have hpiece : pieceOf c = .char c := if_neg fun h => hcontrol h.1
      rw [hpiece, if_neg hcontrol, List.singleton_append, takeString.eq_5 _ _ hquote
        (fun _ _ _ _ _ h => absurd h hslash) (fun _ _ h => absurd h hslash),
        if_neg (by simp [hcontrol, hslash])]
      rfl

lemma takeString_flatMap (s rest : List Char) :
    takeString (s.flatMap escape ++ '"' :: rest) =
      some (s.map pieceOf, (s.flatMap escape).length + 1) := by
  induction s with
  | nil => rfl
  | cons c s ih =>
    rw [List.flatMap_cons, List.append_assoc, takeString_escape, ih]
    simp only [Option.map_some, List.map_cons, List.length_append, Option.some.injEq,
      Prod.mk.injEq, true_and]
    omega

lemma spell?_unit {n : Nat} (h : n < 32) (ps : List Piece) :
    spell? (.unit n :: ps) = (spell? ps).map (Char.ofNat n :: ·) := by
  have hhigh : isHighSurrogate n = false := by
    unfold isHighSurrogate
    simp
    omega
  have hlow : isLowSurrogate n = false := by
    unfold isLowSurrogate
    simp
    omega
  cases ps with
  | nil => rw [spell?.eq_4 _ _ (by simp), hhigh, hlow]; rfl
  | cons p ps =>
    cases p with
    | char c => rw [spell?.eq_4 _ _ (by simp), hhigh, hlow]; rfl
    | unit m => rw [spell?.eq_3, hhigh, hlow]; rfl

lemma spell?_map_pieceOf (s : List Char) : spell? (s.map pieceOf) = some s := by
  induction s with
  | nil => rfl
  | cons c s ih =>
    rw [List.map_cons]
    by_cases hc : c.toNat < 32 ∧ c ∉ ['\x08', '\x0c', '\n', '\r', '\t']
    · have hpiece : pieceOf c = .unit c.toNat := if_pos hc
      rw [hpiece, spell?_unit hc.1, ih, Option.map_some, Char.ofNat_toNat]
    · have hpiece : pieceOf c = .char c := if_neg hc
      rw [hpiece, spell?, ih, Option.map_some]

/-- **A string that is written reads back**, and nothing of what follows it is taken. -/
theorem exists_takeString (s : String) (rest : List Char) : ∃ ps,
    takeString (s.toList.flatMap escape ++ '"' :: rest) =
      some (ps, (s.toList.flatMap escape).length + 1) ∧ (spell? ps).map String.ofList = some s := by
  refine ⟨s.toList.map pieceOf, takeString_flatMap _ _, ?_⟩
  rw [spell?_map_pieceOf, Option.map_some, String.ofList_toList]

end Tariff.Json
