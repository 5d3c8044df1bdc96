import Mathlib.Data.List.Forall2
import Tariff.Proofs.Json.Reread
import Tariff.Proofs.Json.Tidy

/-!
A tidy value that is written is read as some value, even where one of its numbers comes back as
another. Of the fields of an object that have one name, the last gives the value.
-/

namespace Tariff.Json

open Document (value? values? fields?)

lemma Tidy.mono {room room' : Nat} {j : Json} (h : Tidy room j) (hle : room ≤ room') :
    Tidy room' j := by
  induction h generalizing room' with
  | null => exact .null
  | bool => exact .bool
  | number h => exact .number h
  | string => exact .string
  | array _ ih =>
    obtain ⟨more, rfl⟩ := Nat.exists_eq_add_of_le' (Nat.zero_lt_of_lt hle)
    exact .array fun x hx => ih x hx (Nat.le_of_succ_le_succ hle)
  | object hsorted _ ih =>
    obtain ⟨more, rfl⟩ := Nat.exists_eq_add_of_le' (Nat.zero_lt_of_lt hle)
    exact .object hsorted fun p hp => ih p hp (Nat.le_of_succ_le_succ hle)

/-! ### Every value is read -/

lemma exists_value?_printed_number (room : Nat) {n : Number} (h : n.InRange) :
    ∃ j, value? room n.printed = some j := by
  unfold Number.printed
  split_ifs with hw
  · obtain ⟨m, hm⟩ := exists_reread? h hw
    exact ⟨.number m, by rw [hm]; rfl⟩
  · exact ⟨.null, rfl⟩

mutual

/-- **A tidy value that is written is read** as some value. -/
theorem exists_value?_printed : (j : Json) → {room : Nat} → Tidy room j →
    ∃ v, value? room (printed j) = some v
  | .null, _, _ => ⟨.null, rfl⟩
  | .bool b, _, _ => ⟨.bool b, rfl⟩
  | .number n, room, .number h => exists_value?_printed_number room h
  | .string s, _, _ => ⟨.string s, rfl⟩
  | .array xs, room + 1, .array h => by
    obtain ⟨vs, hvs⟩ := exists_values?_printed xs h
    exact ⟨.array vs, by rw [printed, value?, hvs]; rfl⟩
  | .object fs, room + 1, .object _ h => by
    obtain ⟨vs, hvs⟩ := exists_fields?_printed fs h
    exact ⟨sorted vs, by rw [printed, value?, hvs]; rfl⟩

theorem exists_values?_printed : (xs : List Json) → {room : Nat} → (∀ x ∈ xs, Tidy room x) →
    ∃ vs, values? room (printedItems xs) = some vs
  | [], _, _ => ⟨[], rfl⟩
  | x :: xs, room, h => by
    obtain ⟨hx, hxs⟩ := List.forall_mem_cons.mp h
    obtain ⟨v, hv⟩ := exists_value?_printed x hx
    obtain ⟨vs, hvs⟩ := exists_values?_printed xs hxs
    exact ⟨v :: vs, by rw [printedItems, values?, hv, hvs]; rfl⟩

theorem exists_fields?_printed : (fs : List (String × Json)) → {room : Nat} →
    (∀ p ∈ fs, Tidy room p.2) → ∃ vs, fields? room (printedFields fs) = some vs
  | [], _, _ => ⟨[], rfl⟩
  | (k, v) :: fs, room, h => by
    obtain ⟨hv, hfs⟩ := List.forall_mem_cons.mp h
    obtain ⟨w, hw⟩ := exists_value?_printed v hv
    obtain ⟨ws, hws⟩ := exists_fields?_printed fs hfs
    exact ⟨(k, w) :: ws, by rw [printedFields, fields?, hw, hws]; rfl⟩

end

/-! ### The last field of a name -/

lemma lookup_cons_ite {α : Type} (k name : String) (v : α) (fs : List (String × α)) :
    ((k, v) :: fs).lookup name = if name = k then some v else fs.lookup name := by
  rw [List.lookup_cons]
  split_ifs with h
  · rw [h, beq_self_eq_true]
  · rw [beq_false_of_ne h]

lemma lookup_insertField (fs : List (String × Json)) (k name : String) (v : Json) :
    (insertField k v fs).lookup name = if name = k then some v else fs.lookup name := by
  induction fs with
  | nil => exact lookup_cons_ite k name v []
  | cons q fs ih =>
    obtain ⟨k', w⟩ := q
    unfold insertField
    by_cases hlt : k < k'
    · rw [if_pos hlt, lookup_cons_ite]
    by_cases heq : k = k'
    · subst heq
      rw [if_neg hlt, if_pos rfl, lookup_cons_ite, lookup_cons_ite]
      split_ifs <;> rfl
    · rw [if_neg hlt, if_neg heq, lookup_cons_ite, lookup_cons_ite, ih]
      split_ifs with hk' hk
      · exact absurd (hk.symm.trans hk') heq
      · rfl
      · rfl
      · rfl

/-- One field more is put in its place. -/
lemma exists_sorted_concat (js : List (String × Json)) (p : String × Json) :
    ∃ fs, sorted js = .object fs ∧ sorted (js ++ [p]) = .object (insertField p.1 p.2 fs) := by
  refine ⟨_, rfl, ?_⟩
  unfold sorted
  rw [List.foldl_append]
  rfl

lemma field?_sorted (js : List (String × Json)) (name : String) :
    (sorted js).field? name = js.reverse.lookup name := by
  induction js using List.reverseRecOn with
  | nil => rfl
  | append_singleton js p ih =>
    obtain ⟨fs, hfs, hconcat⟩ := exists_sorted_concat js p
    rw [hfs] at ih
    rw [hconcat, field?, lookup_insertField, List.reverse_append, List.reverse_singleton,
      List.singleton_append, lookup_cons_ite, ← ih]
    rfl

lemma forall₂_of_fields? {room : Nat} {fs : List (Option String × Document)}
    {js : List (String × Json)} (h : fields? room fs = some js) :
    List.Forall₂ (fun p q => p.1 = some q.1 ∧ value? room p.2 = some q.2) fs js := by
  induction fs generalizing js with
  | nil => cases h; exact .nil
  | cons p fs ih =>
    obtain ⟨k, d⟩ := p
    obtain ⟨name, hname, h⟩ := Option.bind_eq_some_iff.mp h
    obtain ⟨j, hj, h⟩ := Option.bind_eq_some_iff.mp h
    obtain ⟨js', hjs, rfl⟩ := Option.map_eq_some_iff.mp h
    exact .cons ⟨hname, hj⟩ (ih hjs)

lemma field?_of_fields? {room : Nat} {fs : List (Option String × Document)}
    {js : List (String × Json)} (h : fields? room fs = some js) (name : String) :
    (sorted js).field? name = (fs.reverse.lookup (some name)).bind (value? room) := by
  have hfields := List.rel_reverse (forall₂_of_fields? h)
  rw [field?_sorted]
  generalize fs.reverse = fs, js.reverse = js at hfields
  induction hfields with
  | nil => rfl
  | @cons p q ps qs hpq _ ih =>
    obtain ⟨k, d⟩ := p
    obtain ⟨hname, hvalue⟩ := hpq
    dsimp only at hname hvalue
    rw [List.lookup_cons, List.lookup_cons, hname]
    by_cases hk : name = q.1
    · rw [hk, beq_self_eq_true, beq_self_eq_true]
      exact hvalue.symm
    · have hne : (some name == some q.1) = false :=
        beq_false_of_ne fun heq => hk (Option.some.inj heq)
      rw [beq_false_of_ne hk, hne, ih]

end Tariff.Json
