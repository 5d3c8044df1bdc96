import Mathlib.Data.List.Nodup
import Tariff.Json.Record
import Tariff.Proofs.Json.Tidy
import Tariff.Proofs.Lists

/-!
Records that are written and read back. A reader gives back what was written for it piece by piece:
a value that may be null if the reader gives back the value, a list if it does so for each element,
and the fields of an object in their order, whatever they hold.
-/

namespace Tariff.Json

open Document (missing? nullable? list? someFields? allFields? onlyField?)

variable {α : Type}

/-! ### Options and lists -/

lemma missing?_printed {read : Document → Option α} (hnull : read .null = none) (f : α → Json)
    (o : Option α) :
    missing? read (some (printed (ofOption f o))) = some o ↔
      ∀ a ∈ o, read (printed (f a)) = some a := by
  unfold missing? Document.optional?
  cases o with
  | none => simp [ofOption, printed, nullable?]
  | some a =>
    simp only [ofOption, Option.mem_def, Option.some.injEq, forall_eq']
    cases hd : printed (f a) with
    | null => simp [nullable?, hnull]
    | bool | number | string | array | object => simp [nullable?]

lemma printedItems_map (f : α → Json) (xs : List α) :
    printedItems (xs.map f) = xs.map fun x => printed (f x) := by
  induction xs with
  | nil => rfl
  | cons x xs ih => rw [List.map_cons, List.map_cons, printedItems, ih]

lemma mapM_map_eq_some {read : Document → Option α} {f : α → Document} {xs : List α} :
    (xs.map f).mapM read = some xs ↔ ∀ x ∈ xs, read (f x) = some x := by
  induction xs with
  | nil => simp
  | cons x xs ih =>
    rw [List.forall_mem_cons, ← ih, List.map_cons, List.mapM_cons]
    simp [Option.bind_eq_some_iff]

lemma list?_printed (read : Document → Option α) (f : α → Json) (xs : List α) :
    (printed (.array (xs.map f))).list? read = some xs ↔
      ∀ x ∈ xs, read (printed (f x)) = some x := by
  rw [printed, printedItems_map, list?, mapM_map_eq_some]

lemma string?_printed (s : String) : (printed (.string s)).string? = some s := by
  rw [printed, Document.string?]

lemma missing?_string (o : Option String) :
    missing? Document.string? (some (printed (ofString? o))) = some o := by
  cases o <;> simp [ofString?, printed, missing?, Document.optional?, nullable?, Document.string?]

lemma bool?_printed (b : Bool) : (printed (.bool b)).bool? = some b := by
  rw [printed, Document.bool?]

/-! ### Fields -/

variable {fs : List (String × Json)}

lemma printedFields_eq_map (fs : List (String × Json)) :
    printedFields fs = fs.map fun p => (some p.1, printed p.2) := by
  induction fs with
  | nil => rfl
  | cons p fs ih => rw [List.map_cons, printedFields, ih]

lemma filter_printedFields (h : (fs.map (·.1)).Nodup) (name : String) :
    (printedFields fs).filter (·.1 == some name) =
      ((fs.lookup name).map fun v => (some name, printed v)).toList := by
  induction fs with
  | nil => rfl
  | cons p fs ih =>
    obtain ⟨k, v⟩ := p
    rw [List.map_cons, List.nodup_cons] at h
    by_cases hk : k = name
    · subst hk
      have hnone : fs.lookup k = none := by
        rw [List.lookup_eq_none_iff]
        intro q hq
        exact bne_iff_ne.mpr fun heq => h.1 (List.mem_map.mpr ⟨q, hq, heq.symm⟩)
      rw [printedFields, List.filter_cons_of_pos (by simp), ih h.2, hnone, List.lookup_cons_self]
      rfl
    · have hlookup : ((k, v) :: fs).lookup name = fs.lookup name := by
        rw [List.lookup_cons, beq_false_of_ne (Ne.symm hk)]
      rw [printedFields, List.filter_cons_of_neg (by simpa using hk), ih h.2, hlookup]

lemma onlyField?_printedFields (h : (fs.map (·.1)).Nodup) (name : String) :
    onlyField? (printedFields fs) name = some ((fs.lookup name).map printed) := by
  unfold onlyField?
  rw [filter_printedFields h]
  cases fs.lookup name <;> rfl

lemma lookup_of_mem (h : (fs.map (·.1)).Nodup) {p : String × Json} (hp : p ∈ fs) :
    fs.lookup p.1 = some p.2 := by
  induction fs with
  | nil => cases hp
  | cons q fs ih =>
    rw [List.map_cons, List.nodup_cons] at h
    rcases List.mem_cons.mp hp with rfl | hp
    · exact List.lookup_cons_self
    · have hne : p.1 ≠ q.1 := fun heq => h.1 (List.mem_map.mpr ⟨p, hp, heq⟩)
      rw [List.lookup_cons, beq_false_of_ne hne]
      exact ih h.2 hp

/-- **The fields of an object** with distinct names are found in their order. -/
lemma someFields?_printed {names : List String} (hn : names.Nodup) (h : fs.map (·.1) = names) :
    (printed (.object fs)).someFields? names = some (fs.map fun p => some (printed p.2)) := by
  have hnames : (printedFields fs).any (·.1.isNone) = false := by
    rw [printedFields_eq_map, List.any_map]
    simp
  rw [printed, someFields?, if_neg (by simp [hnames]), ← h, List.mapM_map]
  refine mapM_eq_some fun p hp => ?_
  rw [Function.comp_apply, onlyField?_printedFields (by rwa [h]), lookup_of_mem (by rwa [h]) hp]
  rfl

lemma allFields?_printed {names : List String} (hn : names.Nodup) (h : fs.map (·.1) = names) :
    (printed (.object fs)).allFields? names = some (fs.map fun p => some (printed p.2)) := by
  rw [← someFields?_printed hn h, printed]
  rfl

/-! ### What is read -/

lemma exists_of_missing? {read : Document → Option α} {d : Option Document} {o : Option α}
    (h : missing? read d = some o) {a : α} (ha : a ∈ o) : ∃ d' ∈ d, read d' = some a := by
  obtain rfl := Option.mem_def.mp ha
  cases d with
  | none => cases h
  | some d =>
    have hread : (read d).map some = some (some a) := by
      cases d with
      | null => cases h
      | bool | number | string | array | object => exact h
    obtain ⟨b, hb, heq⟩ := Option.map_eq_some_iff.mp hread
    cases heq
    exact ⟨d, rfl, hb⟩

lemma Document.mem_of_onlyField? {fs : List (Option String × Document)} {name : String}
    {o : Option Document} (h : onlyField? fs name = some o) {d : Document} (hd : d ∈ o) :
    ∃ k, (k, d) ∈ fs := by
  obtain rfl := Option.mem_def.mp hd
  unfold onlyField? at h
  split at h
  · cases h
  next k d' hf =>
    cases h
    exact ⟨k, List.mem_of_mem_filter (hf ▸ List.mem_singleton_self _)⟩
  · cases h

lemma Document.ranged_of_someFields? {d : Document} (hd : d.Ranged) {names : List String}
    {ds : List (Option Document)} (h : d.someFields? names = some ds) :
    ∀ o ∈ ds, ∀ d' ∈ o, d'.Ranged := by
  intro o ho d' hd'
  unfold someFields? at h
  split at h
  next fs =>
    split_ifs at h
    obtain ⟨name, -, hname⟩ := exists_of_mem_mapM h ho
    obtain ⟨k, hk⟩ := mem_of_onlyField? hname hd'
    cases hd with
    | object hf => exact hf _ hk
  next xs =>
    split_ifs at h
    cases h
    rcases List.mem_append.mp ho with ho | ho
    · obtain ⟨x, hx, rfl⟩ := List.mem_map.mp ho
      cases hd'
      cases hd with
      | array hds => exact hds _ hx
    · rw [List.eq_of_mem_replicate ho] at hd'
      cases hd'
  next => cases h

lemma Document.ranged_of_allFields? {d : Document} (hd : d.Ranged) {names : List String}
    {ds : List (Option Document)} (h : d.allFields? names = some ds) :
    ∀ o ∈ ds, ∀ d' ∈ o, d'.Ranged := by
  cases hd with
  | array hxs =>
    rw [allFields?] at h
    split_ifs at h
    cases h
    intro o ho d' hd'
    obtain ⟨x, hx, rfl⟩ := List.mem_map.mp ho
    cases hd'
    exact hxs _ hx
  | object hf => exact ranged_of_someFields? (.object hf) h
  | null | bool | string | number => cases h

end Tariff.Json
