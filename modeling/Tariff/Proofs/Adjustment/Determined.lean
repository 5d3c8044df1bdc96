import Tariff.Proofs.Synthesis.Settled

/-!
Which country lists are determined. A list that is stored counts unless it is empty, and only then
it is put in normal form; so a list of blanks counts, and what it determines is the empty list.
-/

namespace Tariff.Adjustment

open Tariff.Text

def OnlyBlanks (stored : Option (List String)) : Prop :=
  ∃ list, stored = some list ∧ list ≠ [] ∧ ∀ c ∈ list, c.toList.all isBlank = true

def NoneNamed (stored : Option (List String)) : Prop :=
  ∀ list, stored = some list → ∀ c ∈ list, c.toList.all isBlank = true

/-- What is determined where a list is stored, or none is: codes in normal form, and at least one
unless the stored list has only blanks. -/
structure Determined (stored : Option (List String)) (list : List String) : Prop where
  increasing : Increasing list
  trimmed : ∀ c ∈ list, trim c.toList = c.toList
  upperCase : ∀ c ∈ list, upper c.toList = c.toList
  nonempty : ∀ c ∈ list, c ≠ ""
  unchanged : normalizeCountries list = list
  eq_nil_iff : list = [] ↔ OnlyBlanks stored

lemma trim_of_clean {c : String} (h : cleanCode c = c) : trim c.toList = c.toList := by
  have htrimmed : Trimmed (cleanCode c).toList := by
    unfold cleanCode
    rw [String.toList_ofList]
    exact (trimmed_trim c.toList).upper
  rw [h] at htrimmed
  exact htrimmed.trim_eq

lemma upper_of_clean {c : String} (h : cleanCode c = c) : upper c.toList = c.toList := by
  have hupper : upper (cleanCode c).toList = (cleanCode c).toList := by
    unfold cleanCode
    rw [String.toList_ofList, upper_upper]
  rwa [h] at hupper

lemma Normal.determined {stored : Option (List String)} {list : List String} (h : Normal list)
    (hnil : list = [] ↔ OnlyBlanks stored) : Determined stored list where
  increasing := h.increasing
  trimmed c hc := trim_of_clean (h.clean c hc)
  upperCase c hc := upper_of_clean (h.clean c hc)
  nonempty _ hc hempty := h.nonempty (hempty ▸ hc)
  unchanged := h.normalizeCountries_eq
  eq_nil_iff := hnil

lemma normalizeCountries_eq_nil_iff_onlyBlanks {stored : Option (List String)} {list : List String}
    (h : stored? stored = some list) : normalizeCountries list = [] ↔ OnlyBlanks stored := by
  obtain ⟨rfl, hne⟩ := stored?_eq_some_iff.mp h
  rw [normalizeCountries_eq_nil_iff]
  constructor
  · exact fun hblank => ⟨list, rfl, hne, hblank⟩
  · rintro ⟨_, ⟨⟩, -, hblank⟩
    exact hblank

lemma not_onlyBlanks {stored : Option (List String)} (h : stored? stored = none) :
    ¬OnlyBlanks stored := by
  rintro ⟨list, rfl, hne, -⟩
  rw [stored?_eq_some_iff.mpr ⟨rfl, hne⟩] at h
  cases h

lemma determined_applicableCountries {heading : Entry} {list : List String}
    (h : applicableCountries heading = some list) : Determined heading.countries list := by
  refine (normal_of_applicableCountries h).determined ?_
  unfold applicableCountries at h
  split at h
  next stored hs =>
    cases h
    exact normalizeCountries_eq_nil_iff_onlyBlanks hs
  next hs =>
    -- an empty list read out of the description is passed over
    obtain ⟨h, hne⟩ := Option.filter_eq_some_iff.mp h
    cases h
    exact iff_of_false (by simpa using hne) (not_onlyBlanks hs)

lemma determined_nonNtr (e : Entry) (codes : List String) (h : Headings) :
    Determined e.nonNtr (Adjustment.ofEntry e codes h).nonNtr := by
  rw [nonNtr_ofEntry]
  exact (normal_nonNtrCountries e).determined nonNtrCountries_eq_nil_iff

/-- Where no country is named the default ones are taken, unless blanks are stored. -/
lemma nonNtr_eq_default_iff {e : Entry} {codes : List String} {h : Headings}
    (hnone : NoneNamed e.nonNtr) :
    (Adjustment.ofEntry e codes h).nonNtr = defaultNonNtr ↔ ¬OnlyBlanks e.nonNtr := by
  rw [nonNtr_ofEntry]
  rcases nonNtrCountries_cases e with ⟨hs, heq⟩ | ⟨list, he, hne, heq⟩
  · exact iff_of_true heq (not_onlyBlanks hs)
  · have hblank := hnone list he
    rw [heq, normalizeCountries_eq_nil_iff.mpr hblank]
    exact iff_of_false (by decide) (not_not.mpr ⟨list, he, hne, hblank⟩)

/-- **Country lists are determined to be empty for blanks alone.** What is determined of the
countries of a heading and of an entry is a list in normal form that names a country unless the
stored list has only blanks; and the default countries are taken where no country is named, but for
the same exception. -/
theorem countries_determined (heading e : Entry) (codes : List String) (h : Headings) :
    (∀ list, applicableCountries heading = some list → Determined heading.countries list) ∧
      Determined e.nonNtr (Adjustment.ofEntry e codes h).nonNtr ∧
      (NoneNamed e.nonNtr →
        ((Adjustment.ofEntry e codes h).nonNtr = defaultNonNtr ↔ ¬OnlyBlanks e.nonNtr)) :=
  ⟨fun _ => determined_applicableCountries, determined_nonNtr e codes h, nonNtr_eq_default_iff⟩

/-- A country that is stored in two spellings, and an entry that stores no list. -/
theorem countries_determined_two_spellings :
    applicableCountries { countries := some [" cn", "CN "] } = some ["CN"] ∧
      Determined (some [" cn", "CN "]) ["CN"] ∧
      (Adjustment.ofEntry {} [] ⟨[]⟩).nonNtr = defaultNonNtr := by
  have hcountries : applicableCountries { countries := some [" cn", "CN "] } = some ["CN"] := by
    decide +kernel
  have hnone : NoneNamed none := fun _ h => nomatch h
  have hblanks : ¬OnlyBlanks none := fun ⟨_, h, _⟩ => nomatch h
  obtain ⟨hheading, -, hdefault⟩ :=
    countries_determined { countries := some [" cn", "CN "] } {} [] ⟨[]⟩
  exact ⟨hcountries, hheading _ hcountries, (hdefault hnone).mpr hblanks⟩

/-- A heading and an entry that store one blank are determined to have no countries at all. -/
theorem countries_blank :
    applicableCountries { countries := some [" "] } = some [] ∧
      (Adjustment.ofEntry { nonNtr := some [" "] } [] ⟨[]⟩).nonNtr = [] := by
  decide +kernel

end Tariff.Adjustment
