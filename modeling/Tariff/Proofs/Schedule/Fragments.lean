import Tariff.Proofs.Json.Records
import Tariff.Schedule.Record

/-!
Footnotes that are written and read back. A piece of a footnote that is an object with a text under
`value` is read as that text alone, so a piece is read back as it was unless it is a value that it
holds, or a number in it, that does not survive. A value that is read never holds such a text, but
for an object that had several fields of the name.
-/

namespace Tariff

open Json (Document Tidy printed printedFields)
open Json.Document (onlyField?)

/-- A piece as pieces are read where `room` arrays and objects may lie within one another. -/
inductive Fragment.Tidy : Nat → Fragment → Prop where
  | text {room : Nat} {s : String} : Tidy room (.text s)
  | value {room : Nat} {s : String} : Tidy (room + 1) (.value s)
  | other {room : Nat} {j : Json} : j.Tidy room → (∀ s, j ≠ .string s) → Tidy room (.other j)

def Fragment.Persists : Fragment → Prop
  | .text _ => True
  | .value _ => True
  | .other j => (∀ x ∈ j.floats, Json.Persists x) ∧ ∀ s, j.field? "value" ≠ some (.string s)

inductive Footnotes.Tidy : Nat → Footnotes → Prop where
  | text {room : Nat} {s : String} : Tidy room (.text s)
  | fragments {room : Nat} {fs : List Fragment} :
    (∀ f ∈ fs, f.Tidy room) → Tidy (room + 1) (.fragments fs)

def Footnotes.Persists : Footnotes → Prop
  | .text _ => True
  | .fragments fs => ∀ f ∈ fs, f.Persists

/-! ### What is written -/

lemma Json.Tidy.nodup_names {room : Nat} {fs : List (String × Json)}
    (h : Tidy room (.object fs)) : (fs.map (·.1)).Nodup := by
  cases h with
  | object hsorted _ => exact (List.pairwise_map.mpr hsorted).imp ne_of_lt

lemma Json.printed_eq_string {j : Json} {s : String} :
    printed j = .string (some s) ↔ j = .string s := by
  cases j with
  | number n =>
    refine iff_of_false ?_ (by simp)
    unfold printed Json.Number.printed
    split_ifs <;> simp
  | null | bool | string | array | object => simp [printed]

lemma Json.printed_eq_object {j : Json} {fs : List (Option String × Document)} :
    printed j = .object fs ↔ ∃ fs', j = .object fs' ∧ printedFields fs' = fs := by
  cases j with
  | number n =>
    refine iff_of_false ?_ (by simp)
    unfold printed Json.Number.printed
    split_ifs <;> simp
  | null | bool | string | array | object => simp [printed]

lemma Json.onlyField?_printed {fs : List (String × Json)} (h : (fs.map (·.1)).Nodup)
    (name : String) (s : String) :
    onlyField? (printedFields fs) name = some (some (.string (some s))) ↔
      (Json.object fs).field? name = some (.string s) := by
  rw [Json.onlyField?_printedFields h, Json.field?]
  cases fs.lookup name with
  | none => simp
  | some v => simp [Json.printed_eq_string]

namespace Fragment

lemma ofDocument?_object (room : Nat) (fs : List (Option String × Document)) :
    ofDocument? room (.object fs) = ((Document.object fs).value? room).map fun j =>
      match onlyField? fs "value" with
      | some (some (.string (some s))) => .value s
      | _ => .other j := by
  unfold ofDocument?
  cases room with
  | zero => rfl
  | succ room =>
    rw [Document.value?]
    cases Document.fields? room fs with
    | none => rfl
    | some js =>
      simp only [Option.map_some, Json.sorted, Option.bind_eq_bind, Option.bind_some]
      rcases onlyField? fs "value" with - | - | d
      · rfl
      · rfl
      · cases d with
        | string s => cases s <;> rfl
        | null | bool | number | array | object => rfl

/-- Anything but a text is kept as it is, unless it is an object with a text under `value`. -/
lemma ofDocument?_eq_map {room : Nat} {d : Document} (hd : ∀ s, d ≠ .string (some s))
    (hv : ∀ fs s, d = .object fs → onlyField? fs "value" ≠ some (some (.string (some s)))) :
    ofDocument? room d = (d.value? room).map .other := by
  cases d with
  | null => rfl
  | bool b => rfl
  | number n => cases n <;> rfl
  | string s =>
    cases s with
    | none => rfl
    | some s => exact absurd rfl (hd s)
  | array xs =>
    cases room with
    | zero => rfl
    | succ room =>
      rw [ofDocument?, Document.value?]
      cases Document.values? room xs <;> rfl
  | object fs =>
    rw [ofDocument?_object]
    split
    next s h => exact absurd h (hv fs s rfl)
    next => rfl

lemma ofDocument?_printed_other {room : Nat} {j : Json} (h : j.Tidy room)
    (hs : ∀ s, j ≠ .string s) : ofDocument? room (printed j) = some (.other j) ↔
      (Fragment.other j).Persists := by
  by_cases hv : ∃ s, j.field? "value" = some (.string s)
  · obtain ⟨s, hv⟩ := hv
    refine iff_of_false ?_ fun hp => hp.2 s hv
    cases j with
    | object fs =>
      have hfield := (Json.onlyField?_printed h.nodup_names "value" s).mpr hv
      rw [printed, ofDocument?_object, hfield]
      simp
    | null | bool | number | string | array => cases hv
  · have hd : ∀ s, printed j ≠ .string (some s) := fun s heq => hs s (Json.printed_eq_string.mp heq)
    have ho : ∀ fs s, printed j = .object fs →
        onlyField? fs "value" ≠ some (some (.string (some s))) := by
      intro fs s heq hfield
      obtain ⟨fs', rfl, rfl⟩ := Json.printed_eq_object.mp heq
      exact hv ⟨s, (Json.onlyField?_printed h.nodup_names "value" s).mp hfield⟩
    rw [ofDocument?_eq_map hd ho, Persists, ← Json.value?_printed j h]
    simp only [Option.map_eq_some_iff, other.injEq, exists_eq_right]
    exact (and_iff_left fun s h => hv ⟨s, h⟩).symm

/-- **A piece is read back** as it is written exactly if it persists. -/
theorem ofDocument?_printed {room : Nat} {f : Fragment} (h : f.Tidy room) :
    ofDocument? room (printed f.toJson) = some f ↔ f.Persists := by
  cases h with
  | text => exact iff_of_true rfl trivial
  | value => exact iff_of_true rfl trivial
  | other h hs => exact ofDocument?_printed_other h hs

lemma listOfDocument?_printed {room : Nat} {fs : List Fragment}
    (h : (Footnotes.fragments fs).Tidy room) :
    listOfDocument? room (printed (.array (fs.map toJson))) = some fs ↔ ∀ f ∈ fs, f.Persists := by
  cases h with
  | fragments h =>
    rw [printed, Json.printedItems_map, listOfDocument?, Json.mapM_map_eq_some]
    exact forall₂_congr fun f hf => ofDocument?_printed (h f hf)

end Fragment

lemma Footnotes.ofDocument?_printed {room : Nat} {f : Footnotes} (h : f.Tidy room) :
    ofDocument? room (printed f.toJson) = some f ↔ f.Persists := by
  cases f with
  | text s => exact iff_of_true rfl trivial
  | fragments fs =>
    have hread : ofDocument? room (printed (fragments fs).toJson) =
        (Fragment.listOfDocument? room (printed (.array (fs.map Fragment.toJson)))).map
          fragments := rfl
    rw [hread, Footnotes.Persists, ← Fragment.listOfDocument?_printed h]
    simp [Option.map_eq_some_iff]

/-! ### What is read -/

lemma Json.Document.eq_string_of_value? {room : Nat} {d : Document} {s : String}
    (h : d.value? room = some (.string s)) : d = .string (some s) := by
  cases d with
  | null | bool => cases h
  | number n => cases n <;> cases h
  | string t => cases t <;> cases h; rfl
  | array xs =>
    cases room with
    | zero => cases h
    | succ room => obtain ⟨js, -, hj⟩ := Option.map_eq_some_iff.mp h; cases hj
  | object fs =>
    cases room with
    | zero => cases h
    | succ room => obtain ⟨js, -, hj⟩ := Option.map_eq_some_iff.mp h; cases hj

namespace Fragment

lemma tidy_other {room : Nat} {d : Document} {j : Json} (hd : d.Ranged)
    (hs : ∀ s, d ≠ .string (some s)) (h : d.value? room = some j) : (other j).Tidy room := by
  refine .other (Json.tidy_value? d hd h) fun s hj => ?_
  subst hj
  exact hs s (Json.Document.eq_string_of_value? h)

theorem tidy_of_ofDocument? {room : Nat} {d : Document} {f : Fragment} (hd : d.Ranged)
    (h : ofDocument? room d = some f) : f.Tidy room := by
  cases d with
  | string s => cases s <;> cases h; exact .text
  | object fs =>
    rw [ofDocument?_object] at h
    obtain ⟨j, hj, h⟩ := Option.map_eq_some_iff.mp h
    split at h <;> cases h
    · cases room with
      | zero => cases hj
      | succ room => exact .value
    · exact tidy_other hd (by simp) hj
  | null | bool | number | array =>
    rw [ofDocument?_eq_map (by simp) (by simp)] at h
    obtain ⟨j, hj, rfl⟩ := Option.map_eq_some_iff.mp h
    exact tidy_other hd (by simp) hj

lemma tidy_of_listOfDocument? {room : Nat} {d : Document} {fs : List Fragment} (hd : d.Ranged)
    (h : listOfDocument? room d = some fs) : (Footnotes.fragments fs).Tidy room := by
  cases d with
  | array ds =>
    cases room with
    | zero => cases h
    | succ room =>
      refine .fragments fun f hf => ?_
      obtain ⟨d', hd', hread⟩ := exists_of_mem_mapM h hf
      cases hd with
      | array hds => exact tidy_of_ofDocument? (hds d' hd') hread
  | null | bool | number | string | object => cases h

end Fragment

lemma Footnotes.tidy_of_ofDocument? {room : Nat} {d : Document} {f : Footnotes} (hd : d.Ranged)
    (h : ofDocument? room d = some f) : f.Tidy room := by
  cases d with
  | string s =>
    obtain ⟨s, -, rfl⟩ := Option.map_eq_some_iff.mp h
    exact .text
  | null | bool | number | array | object =>
    rw [ofDocument?, Option.map_eq_some_iff] at h
    · obtain ⟨fs, hfs, rfl⟩ := h
      exact Fragment.tidy_of_listOfDocument? hd hfs
    · simp

end Tariff
