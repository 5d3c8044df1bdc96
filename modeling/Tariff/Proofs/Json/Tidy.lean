import Mathlib.Data.String.Basic
import Tariff.Proofs.Json.Documents
import Tariff.Proofs.Json.Ranged

/-!
The values that documents have. They are tidy: the fields of an object are in order of their names,
each name once, integers are of 64 bits, and nothing lies deeper than there is room. A tidy value
that is written comes back whole exactly if each of its floating-point numbers does.
-/

namespace Tariff.Json

open Document (value? values? fields?)

/-- A value in normal form, with no more than `room` arrays and objects within one another. -/
inductive Tidy : Nat → Json → Prop where
  | null {room : Nat} : Tidy room .null
  | bool {room : Nat} {b : Bool} : Tidy room (.bool b)
  | number {room : Nat} {n : Number} : n.InRange → Tidy room (.number n)
  | string {room : Nat} {s : String} : Tidy room (.string s)
  | array {room : Nat} {xs : List Json} : (∀ x ∈ xs, Tidy room x) → Tidy (room + 1) (.array xs)
  | object {room : Nat} {fs : List (String × Json)} :
    fs.Pairwise (·.1 < ·.1) → (∀ p ∈ fs, Tidy room p.2) → Tidy (room + 1) (.object fs)

/-! ### Fields in order -/

variable {fs : List (String × Json)}

lemma mem_insertField {name : String} {v : Json} {p : String × Json}
    (h : p ∈ insertField name v fs) : p = (name, v) ∨ p ∈ fs := by
  induction fs with
  | nil => exact .inl (List.mem_singleton.mp h)
  | cons q rest ih =>
    unfold insertField at h
    split_ifs at h with h1 h2
    · exact List.mem_cons.mp h
    · rcases List.mem_cons.mp h with rfl | h
      · exact .inl (by rw [h2])
      · exact .inr (List.mem_cons_of_mem _ h)
    · rcases List.mem_cons.mp h with rfl | h
      · exact .inr List.mem_cons_self
      · exact (ih h).imp_right (List.mem_cons_of_mem _)

lemma pairwise_insertField (h : fs.Pairwise (·.1 < ·.1)) (name : String) (v : Json) :
    (insertField name v fs).Pairwise (·.1 < ·.1) := by
  induction fs with
  | nil => exact List.pairwise_singleton _ _
  | cons q rest ih =>
    obtain ⟨hq, hrest⟩ := List.pairwise_cons.mp h
    unfold insertField
    split_ifs with h1 h2
    · refine List.pairwise_cons.mpr ⟨fun p hp => ?_, h⟩
      rcases List.mem_cons.mp hp with rfl | hp
      · exact h1
      · exact String.lt_trans h1 (hq p hp)
    · exact List.pairwise_cons.mpr ⟨hq, hrest⟩
    · refine List.pairwise_cons.mpr ⟨fun p hp => ?_, ih hrest⟩
      rcases mem_insertField hp with rfl | hp
      · exact lt_of_le_of_ne (not_lt.mp h1) (Ne.symm h2)
      · exact hq p hp

lemma foldl_insertField_spec {acc : List (String × Json)} (h : acc.Pairwise (·.1 < ·.1)) :
    (fs.foldl (fun fs (k, v) => insertField k v fs) acc).Pairwise (·.1 < ·.1) ∧
      ∀ p ∈ fs.foldl (fun fs (k, v) => insertField k v fs) acc, p ∈ acc ∨ p ∈ fs := by
  induction fs generalizing acc with
  | nil => exact ⟨h, fun p hp => .inl hp⟩
  | cons q rest ih =>
    obtain ⟨hsorted, hmem⟩ := ih (pairwise_insertField h q.1 q.2)
    refine ⟨hsorted, fun p hp => ?_⟩
    rcases hmem p hp with hp | hp
    · rcases mem_insertField hp with rfl | hp
      · exact .inr List.mem_cons_self
      · exact .inl hp
    · exact .inr (List.mem_cons_of_mem _ hp)

lemma insertField_of_forall_lt {name : String} {v : Json} (h : ∀ p ∈ fs, p.1 < name) :
    insertField name v fs = fs ++ [(name, v)] := by
  induction fs with
  | nil => rfl
  | cons q rest ih =>
    obtain ⟨hq, hrest⟩ := List.forall_mem_cons.mp h
    unfold insertField
    rw [if_neg (lt_asymm hq), if_neg hq.ne', ih hrest]
    rfl

lemma sorted_of_pairwise (h : fs.Pairwise (·.1 < ·.1)) : sorted fs = .object fs := by
  have hfold (rest acc : List (String × Json)) (h : (acc ++ rest).Pairwise (·.1 < ·.1)) :
      rest.foldl (fun fs (k, v) => insertField k v fs) acc = acc ++ rest := by
    induction rest generalizing acc with
    | nil => exact (List.append_nil acc).symm
    | cons q rest ih =>
      obtain ⟨k, v⟩ := q
      have hlt : ∀ p ∈ acc, p.1 < k := fun p hp =>
        (List.pairwise_append.mp h).2.2 p hp (k, v) List.mem_cons_self
      rw [List.foldl_cons]
      dsimp only
      rw [insertField_of_forall_lt hlt, ih _ (by simpa using h), List.append_assoc]
      rfl
  exact congrArg Json.object (hfold fs [] h)

/-! ### The values of documents -/

mutual

theorem tidy_value? : (d : Document) → d.Ranged → {room : Nat} → {j : Json} →
    value? room d = some j → Tidy room j
  | .null, _, room, j, h => by cases h; exact .null
  | .bool b, _, room, j, h => by cases h; exact .bool
  | .number n, .number hn, room, j, h => by
    obtain ⟨m, hm, rfl⟩ := Option.map_eq_some_iff.mp h
    exact .number (hn m hm)
  | .string s, _, room, j, h => by
    obtain ⟨t, -, rfl⟩ := Option.map_eq_some_iff.mp h
    exact .string
  | .array xs, .array hx, 0, j, h => by cases h
  | .array xs, .array hx, room + 1, j, h => by
    obtain ⟨js, hjs, rfl⟩ := Option.map_eq_some_iff.mp h
    exact .array (tidy_values? xs hx hjs)
  | .object fs, .object hf, 0, j, h => by cases h
  | .object fs, .object hf, room + 1, j, h => by
    obtain ⟨js, hjs, rfl⟩ := Option.map_eq_some_iff.mp h
    obtain ⟨hsorted, hmem⟩ := @foldl_insertField_spec js [] List.Pairwise.nil
    refine .object hsorted fun p hp => ?_
    exact tidy_fields? fs hf hjs p ((hmem p hp).resolve_left List.not_mem_nil)

theorem tidy_values? : (ds : List Document) → (∀ d ∈ ds, d.Ranged) → {room : Nat} →
    {js : List Json} → values? room ds = some js → ∀ j ∈ js, Tidy room j
  | [], _, room, js, h => by cases h; simp
  | d :: ds, hd, room, js, h => by
    obtain ⟨hd, hds⟩ := List.forall_mem_cons.mp hd
    obtain ⟨j, hj, h⟩ := Option.bind_eq_some_iff.mp h
    obtain ⟨js', hjs, rfl⟩ := Option.map_eq_some_iff.mp h
    exact List.forall_mem_cons.mpr ⟨tidy_value? d hd hj, tidy_values? ds hds hjs⟩

theorem tidy_fields? : (fs : List (Option String × Document)) → (∀ p ∈ fs, p.2.Ranged) →
    {room : Nat} → {js : List (String × Json)} → fields? room fs = some js →
    ∀ p ∈ js, Tidy room p.2
  | [], _, room, js, h => by cases h; simp
  | (k, d) :: fs, hf, room, js, h => by
    obtain ⟨hd, hfs⟩ := List.forall_mem_cons.mp hf
    obtain ⟨name, -, h⟩ := Option.bind_eq_some_iff.mp h
    obtain ⟨j, hj, h⟩ := Option.bind_eq_some_iff.mp h
    obtain ⟨js', hjs, rfl⟩ := Option.map_eq_some_iff.mp h
    exact List.forall_mem_cons.mpr ⟨tidy_value? d hd hj, tidy_fields? fs hfs hjs⟩

end

/-! ### Values that come back -/

/-- The number is written with digits that are read as the number again. -/
def Persists (x : Float) : Prop := (Number.float x).reread? = some (.float x)

lemma persists_iff {x : Float} :
    (Number.float x).reread?.map Number.toFloat = some x ↔ Persists x := by
  unfold Persists
  cases h : (Number.float x).reread? with
  | none => simp
  | some n =>
    obtain ⟨y, rfl⟩ := exists_float_of_reread? h
    simp [Number.toFloat]

instance (x : Float) : Decidable (Persists x) := decidable_of_iff _ persists_iff

mutual

/-- The floating-point numbers in a value. -/
def floats : Json → List Float
  | number (.float x) => [x]
  | array xs => itemFloats xs
  | object fs => fieldFloats fs
  | _ => []

def itemFloats : List Json → List Float
  | [] => []
  | x :: xs => floats x ++ itemFloats xs

def fieldFloats : List (String × Json) → List Float
  | [] => []
  | (_, v) :: fs => floats v ++ fieldFloats fs

end

lemma isWritten_of_reread? {n m : Number} (h : n.reread? = some m) : n.isWritten = true := by
  cases n with
  | integer n => rfl
  | float x =>
    by_contra hx
    have hnull : (Number.float x).render = "null".toList := if_neg hx
    unfold Number.reread? at h
    rw [hnull] at h
    cases h

lemma value?_printed_number {room : Nat} {n : Number} (h : n.InRange) :
    value? room n.printed = some (.number n) ↔ ∀ x ∈ floats (.number n), Persists x := by
  have hread : value? room n.printed = some (.number n) ↔ n.reread? = some n := by
    unfold Number.printed
    cases hw : n.isWritten with
    | true => simp [value?]
    | false =>
      refine iff_of_false (by simp [value?]) fun hr => ?_
      rw [isWritten_of_reread? hr] at hw
      cases hw
  rw [hread]
  cases n with
  | integer n => simp [floats, reread?_integer h.1 h.2]
  | float x => simp [floats, Persists]

lemma keys_fields? {room : Nat} {js : List (String × Json)}
    (h : fields? room (printedFields fs) = some js) : js.map (·.1) = fs.map (·.1) := by
  induction fs generalizing js with
  | nil => cases h; rfl
  | cons q rest ih =>
    obtain ⟨k, v⟩ := q
    obtain ⟨j, -, h⟩ := Option.bind_eq_some_iff.mp h
    obtain ⟨js', hjs, rfl⟩ := Option.map_eq_some_iff.mp h
    rw [List.map_cons, List.map_cons, ih hjs]

mutual

theorem value?_printed : (j : Json) → {room : Nat} → Tidy room j →
    (value? room (printed j) = some j ↔ ∀ x ∈ floats j, Persists x)
  | .null, room, _ => by simp [printed, value?, floats]
  | .bool b, room, _ => by simp [printed, value?, floats]
  | .number n, room, .number h => value?_printed_number h
  | .string s, room, _ => by simp [printed, value?, floats]
  | .array xs, room + 1, .array h => by
    rw [floats, ← values?_printed xs h]
    simp [printed, value?]
  | .object fs, room + 1, .object hsorted h => by
    rw [floats, ← fields?_printed fs h, printed, value?, Option.map_eq_some_iff]
    constructor
    · rintro ⟨js, hjs, hsort⟩
      -- the names are those of the value, and so in order
      have hkeys : js.Pairwise (·.1 < ·.1) := by
        rw [← List.pairwise_map (f := Prod.fst), keys_fields? hjs, List.pairwise_map]
        exact hsorted
      rw [sorted_of_pairwise hkeys, Json.object.injEq] at hsort
      rw [hjs, hsort]
    · intro hjs
      exact ⟨fs, hjs, sorted_of_pairwise hsorted⟩

theorem values?_printed : (xs : List Json) → {room : Nat} → (∀ x ∈ xs, Tidy room x) →
    (values? room (printedItems xs) = some xs ↔ ∀ x ∈ itemFloats xs, Persists x)
  | [], room, _ => by simp [printedItems, values?, itemFloats]
  | x :: xs, room, h => by
    obtain ⟨hx, hxs⟩ := List.forall_mem_cons.mp h
    rw [itemFloats, List.forall_mem_append, ← value?_printed x hx, ← values?_printed xs hxs]
    simp [printedItems, values?, Option.bind_eq_some_iff]

theorem fields?_printed : (fs : List (String × Json)) → {room : Nat} →
    (∀ p ∈ fs, Tidy room p.2) →
    (fields? room (printedFields fs) = some fs ↔ ∀ x ∈ fieldFloats fs, Persists x)
  | [], room, _ => by simp [printedFields, fields?, fieldFloats]
  | (k, v) :: fs, room, h => by
    obtain ⟨hv, hfs⟩ := List.forall_mem_cons.mp h
    rw [fieldFloats, List.forall_mem_append, ← value?_printed v hv, ← fields?_printed fs hfs]
    simp [printedFields, fields?, Option.bind_eq_some_iff]

end

end Tariff.Json
