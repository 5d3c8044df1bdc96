import Tariff.Proofs.Json.Documents

/-!
A value that is written without blanks has the tokens of one that is laid out in lines, and so is
read as the same document.
-/

namespace Tariff.Json

def listTokens : List Json → List Token
  | [] => []
  | x :: xs => tokensOf x ++ itemTokens xs

def recordTokens : List (String × Json) → List Token
  | [] => []
  | (k, v) :: fs => .string (some k) :: .colon :: (tokensOf v ++ fieldTokens fs)

lemma tokensOf_array (xs : List Json) :
    tokensOf (.array xs) = .beginArray :: (listTokens xs ++ [.endArray]) := by
  cases xs <;> simp [tokensOf, listTokens]

lemma tokensOf_object (fs : List (String × Json)) :
    tokensOf (.object fs) = .beginObject :: (recordTokens fs ++ [.endObject]) := by
  rcases fs with - | ⟨⟨k, v⟩, fs⟩ <;> simp [tokensOf, recordTokens]

variable (cs : List Char)

lemma tokensFrom_colon : tokensFrom 0 (':' :: cs) = (tokensFrom 0 cs).map (.colon :: ·) := rfl

mutual

theorem tokensFrom_compactChars : (j : Json) → {cs : List Char} → Delimits cs →
    tokensFrom 0 (compactChars j ++ cs) = (tokensFrom 0 cs).map (tokensOf j ++ ·)
  | .null, _, _ => rfl
  | .bool true, _, _ => rfl
  | .bool false, _, _ => rfl
  | .number n, cs, h => tokensFrom_number n h
  | .string s, cs, _ => tokensFrom_string s cs
  | .array xs, cs, _ => by
    simp only [compactChars, tokensOf_array, List.cons_append, List.append_assoc, List.nil_append]
    rw [tokensFrom_beginArray, tokensFrom_compactItems, tokensFrom_endArray]
    simp only [Option.map_map, Function.comp_def]
  | .object fs, cs, _ => by
    simp only [compactChars, tokensOf_object, List.cons_append, List.append_assoc, List.nil_append]
    rw [tokensFrom_beginObject, tokensFrom_compactFields, tokensFrom_endObject]
    simp only [Option.map_map, Function.comp_def]

theorem tokensFrom_compactItems : (xs : List Json) → (cs : List Char) →
    tokensFrom 0 (compactItems xs ++ (']' :: cs)) =
      (tokensFrom 0 (']' :: cs)).map (listTokens xs ++ ·)
  | [], cs => Option.map_id'.symm
  | [x], cs => by
    have hend : Delimits (']' :: cs) := rfl
    simp only [compactItems, listTokens, itemTokens, List.append_nil]
    exact tokensFrom_compactChars x hend
  | x :: y :: ys, cs => by
    have hcomma : Delimits (',' :: (compactItems (y :: ys) ++ (']' :: cs))) := rfl
    simp only [compactItems, List.append_assoc, List.cons_append]
    rw [tokensFrom_compactChars x hcomma, tokensFrom_comma, tokensFrom_compactItems]
    simp only [listTokens, itemTokens, Option.map_map, Function.comp_def, List.cons_append,
      List.append_assoc]

theorem tokensFrom_compactFields : (fs : List (String × Json)) → (cs : List Char) →
    tokensFrom 0 (compactFields fs ++ ('\x7d' :: cs)) =
      (tokensFrom 0 ('\x7d' :: cs)).map (recordTokens fs ++ ·)
  | [], cs => Option.map_id'.symm
  | [(k, v)], cs => by
    have hend : Delimits ('\x7d' :: cs) := rfl
    simp only [compactFields, List.append_assoc, List.cons_append]
    rw [tokensFrom_string, tokensFrom_colon, tokensFrom_compactChars v hend]
    simp only [recordTokens, fieldTokens, Option.map_map, Function.comp_def, List.cons_append,
      List.append_assoc, List.nil_append]
  | (k, v) :: p :: fs, cs => by
    have hcomma : Delimits (',' :: (compactFields (p :: fs) ++ ('\x7d' :: cs))) := rfl
    simp only [compactFields, List.append_assoc, List.cons_append]
    rw [tokensFrom_string, tokensFrom_colon, tokensFrom_compactChars v hcomma, tokensFrom_comma,
      tokensFrom_compactFields]
    simp only [recordTokens, fieldTokens, Option.map_map, Function.comp_def, List.cons_append,
      List.append_assoc]

end

/-- **A value without blanks has the same tokens.** -/
theorem tokens_compact (j : Json) : tokens j.compact.toList = some (tokensOf j) := by
  have h := tokensFrom_compactChars j delimits_nil
  rw [List.append_nil] at h
  unfold tokens compact
  rw [String.toList_ofList, h]
  simp [tokensFrom]

theorem read?_compact (j : Json) : Document.read? j.compact.toList = some (printed j) :=
  read?_of_tokens (tokens_compact j)

end Tariff.Json
