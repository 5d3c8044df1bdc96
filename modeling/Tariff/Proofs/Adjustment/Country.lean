import Mathlib.Tactic.Common
import Tariff.Adjustment.Country
import Tariff.Proofs.Lists
import Tariff.Proofs.Schedule.SortedSet
import Tariff.Proofs.Text.Upper

/-!
Country lists in normal form. Putting a list in normal form once more changes nothing, and what an
entry or a description says of countries is in normal form.
-/

namespace Tariff.Adjustment

open Tariff.Text

def cleanCode (c : String) : String := String.ofList (upper (trim c.toList))

lemma cleanCode_cleanCode (c : String) : cleanCode (cleanCode c) = cleanCode c := by
  have h : Trimmed (upper (trim c.toList)) := (trimmed_trim c.toList).upper
  unfold cleanCode
  rw [String.toList_ofList, h.trim_eq, upper_upper]

lemma upper_eq_nil_iff {s : List Char} : upper s = [] ↔ s = [] := by
  rcases s with - | ⟨c, cs⟩
  · simp [upper]
  · simp [upper, upperChar_ne_nil]

lemma cleanCode_eq_empty_iff {c : String} : cleanCode c = "" ↔ c.toList.all isBlank = true := by
  unfold cleanCode
  rw [String.ofList_eq_empty_iff, upper_eq_nil_iff, trim_eq_nil_iff]

/-- A list of clean codes, each once, in order. -/
structure Normal (list : List String) : Prop where
  increasing : Increasing list
  clean : ∀ c ∈ list, cleanCode c = c
  nonempty : "" ∉ list

lemma normal_normalizeCountries (list : List String) : Normal (normalizeCountries list) where
  increasing := increasing_sortedSet _
  clean := fun c hc => by
    obtain ⟨d, -, rfl⟩ := List.mem_map.mp (List.mem_of_mem_filter (mem_sortedSet.mp hc))
    exact cleanCode_cleanCode d
  nonempty := fun h => by simpa using List.of_mem_filter (mem_sortedSet.mp h)

lemma Normal.normalizeCountries_eq {list : List String} (h : Normal list) :
    normalizeCountries list = list := by
  have hmap : list.map cleanCode = list :=
    (List.map_congr_left fun c hc => h.clean c hc).trans (List.map_id _)
  have hfilter : list.filter (· ≠ "") = list :=
    List.filter_eq_self.mpr fun c hc => decide_eq_true fun h0 => h.nonempty (h0 ▸ hc)
  calc normalizeCountries list
    _ = sortedSet ((list.map cleanCode).filter (· ≠ "")) := rfl
    _ = list := by rw [hmap, hfilter, h.increasing.sortedSet_eq]

lemma normalizeCountries_eq_nil_iff {list : List String} :
    normalizeCountries list = [] ↔ ∀ c ∈ list, c.toList.all isBlank = true := by
  have h : normalizeCountries list = sortedSet ((list.map cleanCode).filter (· ≠ "")) := rfl
  rw [h, sortedSet_eq_nil, List.filter_eq_nil_iff]
  simp only [List.mem_map, decide_eq_true_eq, not_not, forall_exists_index, and_imp,
    forall_apply_eq_imp_iff₂, cleanCode_eq_empty_iff]

/-! ### Countries of a heading -/

lemma clean_countryNames : ∀ p ∈ countryNames, cleanCode p.2 = p.2 ∧ p.2 ≠ "" := by
  decide +kernel

lemma clean_of_countryCode? {name : List Char} {c : String} (h : countryCode? name = some c) :
    cleanCode c = c ∧ c ≠ "" :=
  clean_countryNames (_, c) (mem_of_lookup_eq_some h)

lemma normal_describedCountries (description : String) :
    Normal (describedCountries description) where
  increasing := increasing_sortedSet _
  clean := fun c hc => by
    obtain ⟨name, -, hn⟩ := List.mem_filterMap.mp (mem_sortedSet.mp hc)
    exact (clean_of_countryCode? hn).1
  nonempty := fun h => by
    obtain ⟨name, -, hn⟩ := List.mem_filterMap.mp (mem_sortedSet.mp h)
    exact (clean_of_countryCode? hn).2 rfl

lemma normal_of_applicableCountries {heading : Entry} {list : List String}
    (h : applicableCountries heading = some list) : Normal list := by
  unfold applicableCountries at h
  split at h
  · cases h
    exact normal_normalizeCountries _
  · obtain ⟨h, -⟩ := Option.filter_eq_some_iff.mp h
    cases h
    exact normal_describedCountries _

/-! ### Countries without normal trade relations -/

lemma normal_defaultNonNtr : Normal defaultNonNtr where
  increasing := by unfold Increasing; decide +kernel
  clean := by decide +kernel
  nonempty := by decide

lemma stored?_eq_some_iff {l : Option (List String)} {list : List String} :
    stored? l = some list ↔ l = some list ∧ list ≠ [] := by
  unfold stored?
  rw [Option.filter_eq_some_iff]
  simp

lemma nonNtrCountries_cases (e : Entry) :
    (stored? e.nonNtr = none ∧ nonNtrCountries e = defaultNonNtr) ∨
      ∃ list, e.nonNtr = some list ∧ list ≠ [] ∧ nonNtrCountries e = normalizeCountries list := by
  unfold nonNtrCountries
  cases h : stored? e.nonNtr with
  | none => exact .inl ⟨rfl, rfl⟩
  | some list =>
    obtain ⟨h1, h2⟩ := stored?_eq_some_iff.mp h
    exact .inr ⟨list, h1, h2, rfl⟩

lemma normal_nonNtrCountries (e : Entry) : Normal (nonNtrCountries e) := by
  rcases nonNtrCountries_cases e with ⟨-, h⟩ | ⟨list, -, -, h⟩
  · rw [h]; exact normal_defaultNonNtr
  · rw [h]; exact normal_normalizeCountries list

/-- The entry has a list of countries without normal trade relations that names none: all its texts
are blank. -/
def NamesNoCountry (e : Entry) : Prop :=
  ∃ list, e.nonNtr = some list ∧ list ≠ [] ∧ ∀ c ∈ list, c.toList.all isBlank = true

lemma nonNtrCountries_eq_nil_iff {e : Entry} : nonNtrCountries e = [] ↔ NamesNoCountry e := by
  unfold NamesNoCountry
  rcases nonNtrCountries_cases e with ⟨hs, h⟩ | ⟨list, he, hne, h⟩
  · rw [h]
    refine iff_of_false (by decide) ?_
    rintro ⟨list, he, hne, -⟩
    rw [stored?_eq_some_iff.mpr ⟨he, hne⟩] at hs
    cases hs
  · rw [h, normalizeCountries_eq_nil_iff, he]
    simp [hne]

end Tariff.Adjustment
