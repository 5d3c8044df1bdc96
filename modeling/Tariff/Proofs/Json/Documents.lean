import Tariff.Json.Document
import Tariff.Proofs.Json.Tokens

/-!
A value that is laid out in lines is read as one document, whatever strings and numbers it holds
and however deep it goes. Only the numbers of the document can differ from those of the value.
-/

namespace Tariff.Json

open Document (valueDue valueRead)

/-! ### The document of a value -/

def Number.printed (n : Number) : Document :=
  if n.isWritten then .number n.reread? else .null

mutual

/-- The document that the text of a value is read as. -/
def printed : Json → Document
  | null => .null
  | bool b => .bool b
  | number n => n.printed
  | string s => .string (some s)
  | array xs => .array (printedItems xs)
  | object fs => .object (printedFields fs)

def printedItems : List Json → List Document
  | [] => []
  | x :: xs => printed x :: printedItems xs

def printedFields : List (String × Json) → List (Option String × Document)
  | [] => []
  | (k, v) :: fs => (some k, printed v) :: printedFields fs

end

lemma valueDue_token (outer : List Document.Frame) (n : Number) (ts : List Token) :
    valueDue outer (n.token :: ts) = valueRead outer n.printed ts := by
  unfold Number.token Number.printed
  split_ifs <;> rw [valueDue]

lemma tokensOf_ne_endArray (j : Json) (ts ts' : List Token) :
    tokensOf j ++ ts ≠ .endArray :: ts' := by
  match j with
  | .number n =>
    simp only [tokensOf, Number.token]
    split_ifs <;> simp
  | .null | .bool _ | .string _ | .array [] | .array (_ :: _) | .object [] | .object (_ :: _) =>
    simp [tokensOf]

lemma tokensOf_ne_name (j : Json) {ts : List Token} (h : ∀ ts', ts ≠ .colon :: ts')
    (k : Option String) (ts' : List Token) : tokensOf j ++ ts ≠ .string k :: .colon :: ts' := by
  match j with
  | .number n =>
    simp only [tokensOf, Number.token]
    split_ifs <;> simp
  | .string s =>
    intro heq
    exact h ts' (List.cons.inj heq).2
  | .null | .bool _ | .array [] | .array (_ :: _) | .object [] | .object (_ :: _) =>
    simp [tokensOf]

lemma itemTokens_ne_colon (xs : List Json) (ts ts' : List Token) :
    itemTokens xs ++ (.endArray :: ts) ≠ .colon :: ts' := by
  cases xs <;> simp [itemTokens]

mutual

theorem valueDue_tokensOf (outer : List Document.Frame) : (j : Json) → (ts : List Token) →
    valueDue outer (tokensOf j ++ ts) = valueRead outer (printed j) ts
  | .null, ts => by
    rw [tokensOf, List.singleton_append, valueDue, printed]
  | .bool b, ts => by
    rw [tokensOf, List.singleton_append, valueDue, printed]
  | .number n, ts => valueDue_token outer n ts
  | .string s, ts => by
    rw [tokensOf, List.singleton_append, valueDue, printed]
  | .array [], ts => by
    simp only [tokensOf, printed, printedItems, List.cons_append, List.nil_append]
    rw [valueDue]
  | .array (x :: xs), ts => by
    simp only [tokensOf, printed, printedItems, List.cons_append, List.append_assoc,
      List.nil_append]
    rw [valueDue, valueDue_tokensOf, valueRead_itemTokens]
    · rfl
    · exact tokensOf_ne_endArray x _
  | .object [], ts => by
    simp only [tokensOf, printed, printedFields, List.cons_append, List.nil_append]
    rw [valueDue]
  | .object ((k, v) :: fs), ts => by
    simp only [tokensOf, printed, printedFields, List.cons_append, List.append_assoc,
      List.nil_append]
    rw [valueDue, valueDue_tokensOf, valueRead_fieldTokens]
    rfl

theorem valueRead_itemTokens (outer : List Document.Frame) (done : List Document) :
    (d : Document) → (xs : List Json) → (ts : List Token) →
    valueRead (.array done :: outer) d (itemTokens xs ++ (.endArray :: ts)) =
      valueRead outer (.array ((d :: done).reverse ++ printedItems xs)) ts
  | d, [], ts => by
    simp only [itemTokens, printedItems, List.nil_append, List.append_nil]
    rw [valueRead]
  | d, x :: xs, ts => by
    simp only [itemTokens, printedItems, List.cons_append, List.append_assoc]
    rw [valueRead, valueDue_tokensOf, valueRead_itemTokens]
    · simp
    · exact tokensOf_ne_name x (itemTokens_ne_colon xs ts)

theorem valueRead_fieldTokens (outer : List Document.Frame)
    (done : List (Option String × Document)) (name : Option String) :
    (d : Document) → (fs : List (String × Json)) → (ts : List Token) →
    valueRead (.object done name :: outer) d (fieldTokens fs ++ (.endObject :: ts)) =
      valueRead outer (.object (((name, d) :: done).reverse ++ printedFields fs)) ts
  | d, [], ts => by
    simp only [fieldTokens, printedFields, List.nil_append, List.append_nil]
    rw [valueRead]
  | d, (k, v) :: fs, ts => by
    simp only [fieldTokens, printedFields, List.cons_append, List.append_assoc]
    rw [valueRead, valueDue_tokensOf, valueRead_fieldTokens]
    simp

end

lemma read?_of_tokens {j : Json} {text : List Char} (h : tokens text = some (tokensOf j)) :
    Document.read? text = some (printed j) := by
  have hdue := valueDue_tokensOf [] j []
  rw [List.append_nil] at hdue
  unfold Document.read?
  rw [h]
  exact hdue.trans (by rw [valueRead]; rfl)

/-- **A value that is written is read as its document**, whatever it holds. -/
theorem read?_pretty (j : Json) : Document.read? j.pretty.toList = some (printed j) :=
  read?_of_tokens (tokens_pretty j)

end Tariff.Json
