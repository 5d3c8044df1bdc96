import Tariff.Proofs.Json.Numerals
import Tariff.Proofs.Json.Strings

/-!
The tokens of a value that is laid out in lines. Blanks and line ends come to nothing, strings and
punctuation to themselves, and a number to whatever its text is read as.
-/

namespace Tariff.Json

open Tariff.Text (isAsciiDigit)

def Number.token (n : Number) : Token := if n.isWritten then .number n.reread? else .null

mutual

def tokensOf : Json → List Token
  | null => [.null]
  | bool b => [.bool b]
  | number n => [n.token]
  | string s => [.string (some s)]
  | array [] => [.beginArray, .endArray]
  | array (x :: xs) => .beginArray :: (tokensOf x ++ (itemTokens xs ++ [.endArray]))
  | object [] => [.beginObject, .endObject]
  | object ((k, v) :: fs) =>
    .beginObject :: .string (some k) :: .colon :: (tokensOf v ++ (fieldTokens fs ++ [.endObject]))

def itemTokens : List Json → List Token
  | [] => []
  | x :: xs => .comma :: (tokensOf x ++ itemTokens xs)

def fieldTokens : List (String × Json) → List Token
  | [] => []
  | (k, v) :: fs => .comma :: .string (some k) :: .colon :: (tokensOf v ++ fieldTokens fs)

end

/-! ### Single tokens -/

lemma tokensFrom_skip (s cs : List Char) : tokensFrom s.length (s ++ cs) = tokensFrom 0 cs := by
  induction s with
  | nil => rfl
  | cons c s ih => exact ih

lemma tokensFrom_space {c : Char} (h : isSpace c = true) (cs : List Char) :
    tokensFrom 0 (c :: cs) = tokensFrom 0 cs :=
  if_pos h

lemma tokensFrom_token {c : Char} (hc : isSpace c = false) {s cs : List Char} {t : Token}
    (h : takeToken c (s ++ cs) = some (t, s.length + 1)) :
    tokensFrom 0 (c :: s ++ cs) = (tokensFrom 0 cs).map (t :: ·) := by
  rw [List.cons_append, tokensFrom, if_neg (by simp [hc]), h]
  exact congrArg (Option.map (t :: ·)) (tokensFrom_skip s cs)

lemma tokensFrom_lineAt (depth : Nat) (cs : List Char) :
    tokensFrom 0 (lineAt depth ++ cs) = tokensFrom 0 cs := by
  have hblanks (n : Nat) : tokensFrom 0 (List.replicate n ' ' ++ cs) = tokensFrom 0 cs := by
    induction n with
    | zero => rfl
    | succ n ih => exact (tokensFrom_space rfl _).trans ih
  exact (tokensFrom_space rfl _).trans (hblanks _)

lemma tokensFrom_string (s : String) (cs : List Char) :
    tokensFrom 0 (renderString s ++ cs) = (tokensFrom 0 cs).map (.string (some s) :: ·) := by
  obtain ⟨ps, htake, hspell⟩ := exists_takeString s cs
  refine tokensFrom_token (s := s.toList.flatMap escape ++ ['"']) rfl ?_
  rw [List.append_assoc, List.singleton_append]
  unfold takeToken
  dsimp only
  rw [htake, Option.map_some, hspell, List.length_append, List.length_singleton]
  rfl

/-- A character that a number begins with begins nothing else. -/
lemma takeToken_eq_takeNumeral {c : Char} (hc : isAsciiDigit c = true ∨ c = '-') (cs : List Char) :
    isSpace c = false ∧
      takeToken c cs = (takeNumeral (c :: cs)).map fun (l, k) => (.number l.value?, k) := by
  rcases hc with hc | rfl
  · constructor
    · rw [← Bool.not_eq_true]
      intro hs
      simp only [isSpace, Bool.or_eq_true, beq_iff_eq] at hs
      rcases hs with ((rfl | rfl) | rfl) | rfl <;> exact absurd hc (by decide)
    · unfold takeToken
      split
      case h_11 => rfl
      all_goals exact absurd hc (by decide)
  · exact ⟨rfl, rfl⟩

lemma tokensFrom_number (n : Number) {cs : List Char} (h : Delimits cs) :
    tokensFrom 0 (n.render ++ cs) = (tokensFrom 0 cs).map (n.token :: ·) := by
  cases hn : n.isWritten with
  | false =>
    have hnull : n.render = "null".toList := by
      cases n with
      | integer n => cases hn
      | float x => exact if_neg (by rw [← Bool.not_eq_true] at hn; exact hn)
    have htoken : n.token = .null := if_neg (by simp [hn])
    rw [hnull, htoken]
    exact tokensFrom_token (c := 'n') (s := ['u', 'l', 'l']) rfl rfl
  | true =>
    obtain ⟨l, htake, hvalue⟩ := takeNumeral_render hn h
    have htoken : n.token = .number n.reread? := if_pos hn
    obtain ⟨c, s, hc, hrender⟩ : ∃ c s, (isAsciiDigit c = true ∨ c = '-') ∧ n.render = c :: s := by
      obtain ⟨l, hl, htext⟩ := exists_numeral hn
      obtain ⟨d, ds, hd⟩ := List.exists_cons_of_ne_nil hl.whole.2
      rw [htext]
      unfold Numeral.text
      rw [hd]
      cases l.negative with
      | true => exact ⟨'-', _, .inr rfl, rfl⟩
      | false => exact ⟨d, _, .inl (hl.whole.1 d (by rw [hd]; exact List.mem_cons_self)), rfl⟩
    rw [hrender] at htake ⊢
    obtain ⟨hspace, htoken'⟩ := takeToken_eq_takeNumeral hc (s ++ cs)
    refine tokensFrom_token hspace ?_
    rw [htoken', ← List.cons_append, htake, htoken, ← hvalue]
    rfl

/-! ### Values -/

lemma delimits_items (depth : Nat) (xs : List Json) (d : Nat) (cs : List Char) :
    Delimits (prettyItems depth xs ++ (lineAt d ++ cs)) := by
  cases xs <;> rfl

lemma delimits_fields (depth : Nat) (fs : List (String × Json)) (d : Nat) (cs : List Char) :
    Delimits (prettyFields depth fs ++ (lineAt d ++ cs)) := by
  rcases fs with - | ⟨⟨k, v⟩, fs⟩ <;> simp only [prettyFields] <;> rfl

variable (cs : List Char)

lemma tokensFrom_comma : tokensFrom 0 (',' :: cs) = (tokensFrom 0 cs).map (.comma :: ·) := rfl

lemma tokensFrom_beginArray :
    tokensFrom 0 ('[' :: cs) = (tokensFrom 0 cs).map (.beginArray :: ·) := rfl

lemma tokensFrom_endArray : tokensFrom 0 (']' :: cs) = (tokensFrom 0 cs).map (.endArray :: ·) := rfl

lemma tokensFrom_beginObject :
    tokensFrom 0 ('\x7b' :: cs) = (tokensFrom 0 cs).map (.beginObject :: ·) := rfl

lemma tokensFrom_endObject :
    tokensFrom 0 ('\x7d' :: cs) = (tokensFrom 0 cs).map (.endObject :: ·) := rfl

lemma tokensFrom_name (k : String) :
    tokensFrom 0 (renderString k ++ (": ".toList ++ cs)) =
      (tokensFrom 0 cs).map fun ts => .string (some k) :: .colon :: ts := by
  have hcolon : tokensFrom 0 (": ".toList ++ cs) = (tokensFrom 0 cs).map (.colon :: ·) := rfl
  rw [tokensFrom_string, hcolon, Option.map_map]
  rfl

mutual

theorem tokensFrom_prettyChars (depth : Nat) : (j : Json) → {cs : List Char} → Delimits cs →
    tokensFrom 0 (prettyChars depth j ++ cs) = (tokensFrom 0 cs).map (tokensOf j ++ ·)
  | .null, _, _ => rfl
  | .bool true, _, _ => rfl
  | .bool false, _, _ => rfl
  | .number n, cs, h => tokensFrom_number n h
  | .string s, cs, _ => tokensFrom_string s cs
  | .array [], cs, _ => by
    simp only [prettyChars, tokensOf, List.cons_append, List.nil_append, tokensFrom_beginArray,
      tokensFrom_endArray, Option.map_map, Function.comp_def]
  | .array (x :: xs), cs, _ => by
    have hx := tokensFrom_prettyChars (depth + 1) x
      (delimits_items (depth + 1) xs depth (']' :: cs))
    simp only [prettyChars, tokensOf, List.cons_append, List.append_assoc, List.nil_append]
    rw [tokensFrom_beginArray, tokensFrom_lineAt, hx, tokensFrom_prettyItems, tokensFrom_endArray]
    simp only [Option.map_map, Function.comp_def]
  | .object [], cs, _ => by
    simp only [prettyChars, tokensOf, List.cons_append, List.nil_append, tokensFrom_beginObject,
      tokensFrom_endObject, Option.map_map, Function.comp_def]
  | .object ((k, v) :: fs), cs, _ => by
    have hv := tokensFrom_prettyChars (depth + 1) v
      (delimits_fields (depth + 1) fs depth ('\x7d' :: cs))
    simp only [prettyChars, tokensOf, List.cons_append, List.append_assoc, List.nil_append]
    rw [tokensFrom_beginObject, tokensFrom_lineAt, tokensFrom_name, hv, tokensFrom_prettyFields,
      tokensFrom_endObject]
    simp only [Option.map_map, Function.comp_def]

theorem tokensFrom_prettyItems (depth : Nat) : (xs : List Json) → (d : Nat) → (cs : List Char) →
    tokensFrom 0 (prettyItems depth xs ++ (lineAt d ++ cs)) =
      (tokensFrom 0 cs).map (itemTokens xs ++ ·)
  | [], d, cs => by
    rw [prettyItems, itemTokens, List.nil_append, tokensFrom_lineAt]
    exact Option.map_id'.symm
  | x :: xs, d, cs => by
    have hx := tokensFrom_prettyChars depth x (delimits_items depth xs d cs)
    simp only [prettyItems, itemTokens, List.cons_append, List.append_assoc]
    rw [tokensFrom_comma, tokensFrom_lineAt, hx, tokensFrom_prettyItems]
    simp only [Option.map_map, Function.comp_def]

theorem tokensFrom_prettyFields (depth : Nat) : (fs : List (String × Json)) → (d : Nat) →
    (cs : List Char) → tokensFrom 0 (prettyFields depth fs ++ (lineAt d ++ cs)) =
      (tokensFrom 0 cs).map (fieldTokens fs ++ ·)
  | [], d, cs => by
    rw [prettyFields, fieldTokens, List.nil_append, tokensFrom_lineAt]
    exact Option.map_id'.symm
  | (k, v) :: fs, d, cs => by
    have hv := tokensFrom_prettyChars depth v (delimits_fields depth fs d cs)
    simp only [prettyFields, fieldTokens, List.cons_append, List.append_assoc]
    rw [tokensFrom_comma, tokensFrom_lineAt, tokensFrom_name, hv, tokensFrom_prettyFields]
    simp only [Option.map_map, Function.comp_def]

end

/-- **The tokens of a value that is laid out in lines.** -/
theorem tokens_pretty (j : Json) : tokens j.pretty.toList = some (tokensOf j) := by
  have h := tokensFrom_prettyChars 0 j delimits_nil
  rw [List.append_nil] at h
  unfold tokens pretty
  rw [String.toList_ofList, h]
  simp [tokensFrom]

end Tariff.Json
