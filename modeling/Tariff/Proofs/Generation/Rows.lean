import Tariff.Proofs.Generation.Tables

/-!
The rows of an answer to a batch. What the answer brings for an index is the first row that holds
and bears it; other rows, and indices that were not asked for, play no part.
-/

namespace Tariff.Generation

variable {expected : List Nat} {found : Indexed Compiled}

/-- The formula of a row, if the row holds and bears an index. -/
def rowFor (index : Nat) (row : Json) : Option Compiled :=
  match readRow row with
  | .ok (i, c) => if i = index then some c else none
  | .error _ => none

/-- The formula of the first row that holds and bears an index. -/
def firstRow? (index : Nat) (answer : String) : Option Compiled :=
  match readValue answer with
  | .ok (.array rows) => rows.findSome? (rowFor index)
  | _ => none

lemma rowFor_eq_some {index : Nat} {row : Json} {c : Compiled} :
    rowFor index row = some c ↔ readRow row = .ok (index, c) := by
  unfold rowFor
  cases readRow row with
  | error f => simp
  | ok p =>
    obtain ⟨i, c'⟩ := p
    by_cases h : i = index <;> simp [h]

lemma firstRow?_eq_some {index : Nat} {answer : String} {c : Compiled}
    (h : firstRow? index answer = some c) :
    ∃ rows row, readValue answer = .ok (.array rows) ∧ row ∈ rows ∧
      readRow row = .ok (index, c) := by
  unfold firstRow? at h
  split at h
  next rows hrows =>
    obtain ⟨row, hrow, h⟩ := List.exists_of_findSome?_eq_some h
    exact ⟨rows, row, hrows, hrow, rowFor_eq_some.mp h⟩
  next => cases h

/-! ### Reading the rows -/

lemma ascending_addRow (h : found.Ascending) (row : Json) :
    (addRow expected found row).Ascending := by
  unfold addRow
  split
  · split_ifs
    · exact h.put _ _
    · exact h
  · exact h

lemma lookup_addRow (expected : List Nat) (found : Indexed Compiled) (row : Json) (index : Nat) :
    (addRow expected found row).lookup index =
      (found.lookup index).or (if index ∈ expected then rowFor index row else none) := by
  unfold addRow rowFor
  cases readRow row with
  | error f => simp
  | ok p =>
    obtain ⟨i, c⟩ := p
    dsimp only
    by_cases hi : i = index
    · rw [if_pos hi, hi]
      by_cases hmem : index ∈ expected
      · cases hl : found.lookup index with
        | some c' => simp [hl]
        | none => simp [hmem, Indexed.lookup_put]
      · simp [hmem]
    · rw [if_neg hi, ite_self, Option.or_none]
      split_ifs
      · rw [Indexed.lookup_put, if_neg (Ne.symm hi)]
      · rfl

lemma ascending_readBatch {answer : String} (h : readBatch expected answer = .ok found) :
    found.Ascending := by
  obtain ⟨j, -, h⟩ := bind_eq_ok.mp h
  cases j with
  | array rows =>
    cases h
    exact List.foldlRecOn _ _ List.Pairwise.nil fun _ hf row _ => ascending_addRow hf row
  | null | bool | number | string | object => cases h

/-- **What a batch brings for an index** is the first row for it, if the index was asked for. -/
theorem lookup_readBatch (expected : List Nat) (answer : String) (index : Nat) :
    ((readBatch expected answer).toOption.bind (·.lookup index)) =
      if index ∈ expected then firstRow? index answer else none := by
  have hfold (rows : List Json) (found : Indexed Compiled) :
      (rows.foldl (addRow expected) found).lookup index = (found.lookup index).or
        (if index ∈ expected then rows.findSome? (rowFor index) else none) := by
    induction rows generalizing found with
    | nil => simp
    | cons row rows ih =>
      rw [List.foldl_cons, ih, lookup_addRow, Option.or_assoc, List.findSome?_cons]
      split_ifs
      · cases rowFor index row <;> rfl
      · rfl
  unfold readBatch firstRow?
  cases readValue answer with
  | error f => simp [bind, Except.bind, Except.toOption]
  | ok j =>
    cases j with
    | array rows => exact (hfold rows []).trans (Option.none_or ..)
    | null | bool | number | string | object =>
      simp [bind, Except.bind, Except.toOption]

end Tariff.Generation
