import Mathlib.Tactic.Common
import Tariff.Proofs.Schedule.SortedSet
import Tariff.Proofs.Text.Classes
import Tariff.Proofs.Text.Scan
import Tariff.Proofs.Text.Trim
import Tariff.Synthesis.Entry

/-!
The codes of Chapter 99 in a text. A code that is found in a text and looked for again is found as
it stands, so the links that a synthesis stores resolve to themselves.
-/

namespace Tariff

open Tariff.Text

/-! ### One form -/

structure HasForm (form : List CodeChar) (code : List Char) : Prop where
  length : code.length = form.length
  accepts : ∀ i (hf : i < form.length) (hc : i < code.length), form[i].accepts code[i] = true

lemma hasForm_iff {form : List CodeChar} {code : List Char} : HasForm form code ↔
    code.length = form.length ∧ (form.zip code).all (fun (f, c) => f.accepts c) = true := by
  constructor
  · rintro ⟨hl, ha⟩
    refine ⟨hl, List.all_eq_true.mpr fun p hp => ?_⟩
    obtain ⟨i, hi, rfl⟩ := List.mem_iff_getElem.mp hp
    rw [List.length_zip] at hi
    simpa [List.getElem_zip] using ha i (by omega) (by omega)
  · rintro ⟨hl, ha⟩
    refine ⟨hl, fun i hf hc => ?_⟩
    have hi : i < (form.zip code).length := by rw [List.length_zip]; omega
    simpa [List.getElem_zip] using List.all_eq_true.mp ha _ (List.getElem_mem hi)

lemma hasForm_of_takeForm {form : List CodeChar} {text code rest : List Char}
    (h : takeForm form text = some (code, rest)) : HasForm form code := by
  unfold takeForm at h
  dsimp only at h
  split_ifs at h with hc
  cases h
  simp only [Bool.and_eq_true, beq_iff_eq] at hc
  exact hasForm_iff.mpr hc.1

lemma takeForm_self {form : List CodeChar} {code : List Char} (h : HasForm form code)
    (hw : code.getLast?.any isWord = true) : takeForm form code = some (code, []) := by
  unfold takeForm
  have hl := (hasForm_iff.mp h).1
  have ha := (hasForm_iff.mp h).2
  rw [← hl, List.take_length, List.drop_length]
  simp [ha, atBoundary, hw]

lemma takeForm_eq_none {form : List CodeChar} {text : List Char} (h : text.length < form.length) :
    takeForm form text = none := by
  unfold takeForm
  have : ((text.take form.length).length == form.length) = false := by
    rw [List.length_take]
    exact beq_eq_false_iff_ne.mpr (by omega)
  simp only [this, Bool.false_and, Bool.false_eq_true, if_false]

lemma HasForm.exists_getElem? {form : List CodeChar} {code : List Char} (h : HasForm form code)
    {i : Nat} {f : CodeChar} (hf : form[i]? = some f) : ∃ c, code[i]? = some c ∧ f.accepts c = true := by
  obtain ⟨hi, rfl⟩ := List.getElem?_eq_some_iff.mp hf
  have hc : i < code.length := by rw [h.length]; exact hi
  exact ⟨code[i], List.getElem?_eq_getElem hc, h.accepts i hi hc⟩

def IsCode (code : List Char) : Prop := HasForm longCode code ∨ HasForm shortCode code

namespace IsCode

variable {code : List Char}

lemma ends (h : IsCode code) :
    code.head? = some '9' ∧ ∃ c, code.getLast? = some c ∧ isDecimalDigit c = true := by
  simp only [List.head?_eq_getElem?, List.getLast?_eq_getElem?]
  have nine {form : List CodeChar} (hf : HasForm form code) (h0 : form[0]? = some (.char '9')) :
      code[0]? = some '9' := by
    obtain ⟨c, hc, ha⟩ := hf.exists_getElem? h0
    rw [hc, eq_of_beq (show ('9' == c) = true from ha)]
  rcases h with h | h
  · exact ⟨nine h rfl, by rw [h.length]; exact h.exists_getElem? (f := .digit) rfl⟩
  · exact ⟨nine h rfl, by rw [h.length]; exact h.exists_getElem? (f := .digit) rfl⟩

lemma trimmed (h : IsCode code) : Trimmed code := by
  obtain ⟨hh, c, hl, hc⟩ := h.ends
  refine ⟨?_, ?_⟩
  · rw [hh]; simp; decide
  · rw [hl]; simpa using isBlank_of_isDecimalDigit hc

lemma chapter99Code_self (h : IsCode code) :
    chapter99Code none code = some (String.ofList code, []) := by
  obtain ⟨hh, c, hl, hc⟩ := h.ends
  have hw : code.getLast?.any isWord = true := by
    rw [hl]; simpa using isWord_of_isDecimalDigit hc
  have hb : atBoundary none code = true := by rw [atBoundary, hh]; decide
  unfold chapter99Code
  rw [if_pos hb]
  rcases h with h | h
  · rw [takeForm_self h hw]; rfl
  · rw [takeForm_self h hw, takeForm_eq_none (by rw [h.length]; decide)]; rfl

lemma chapter99Codes_self (h : IsCode code) :
    chapter99Codes (String.ofList code) = [String.ofList code] := by
  obtain ⟨cs, rfl⟩ := List.head?_eq_some_iff.mp h.ends.1
  unfold chapter99Codes Pattern.collect
  rw [String.toList_ofList]
  unfold Pattern.collectFrom
  rw [h.chapter99Code_self]
  exact congrArg _ (Pattern.collectFrom_skip _ _)

end IsCode

lemma isCode_of_chapter99Code {before : Option Char} {text rest : List Char} {s : String}
    (h : chapter99Code before text = some (s, rest)) :
    ∃ code, IsCode code ∧ s = String.ofList code := by
  unfold chapter99Code at h
  split_ifs at h
  simp only [Option.orElse_eq_orElse, Option.orElse_eq_or, Option.map_eq_some_iff,
    Option.or_eq_some_iff, Prod.mk.injEq] at h
  obtain ⟨⟨code, rest'⟩, h | ⟨-, h⟩, rfl, -⟩ := h
  · exact ⟨code, .inl (hasForm_of_takeForm h), rfl⟩
  · exact ⟨code, .inr (hasForm_of_takeForm h), rfl⟩

lemma isCode_of_mem {text : String} {s : String} (h : s ∈ chapter99Codes text) :
    ∃ code, IsCode code ∧ s = String.ofList code := by
  obtain ⟨before, text', rest, hp⟩ := Pattern.exists_of_mem_collect h
  exact isCode_of_chapter99Code hp

/-! ### The links of an entry -/

namespace Entry

lemma isCode_of_mem_resolveLinks {e : Entry} {s : String} (h : s ∈ e.resolveLinks) :
    ∃ code, IsCode code ∧ s = String.ofList code := by
  unfold resolveLinks at h
  obtain ⟨text, -, hs⟩ := List.mem_flatMap.mp (mem_sortedSet.mp h)
  exact isCode_of_mem hs

/-- Links that are resolved resolve to themselves. -/
lemma flatMap_resolveLinks (e : Entry) : e.resolveLinks.flatMap chapter99Codes = e.resolveLinks := by
  rw [List.flatMap_congr fun s hs => ?_, List.flatMap_singleton']
  obtain ⟨code, hc, rfl⟩ := isCode_of_mem_resolveLinks hs
  exact hc.chapter99Codes_self

lemma resolveLinks_eq (e : Entry) : e.resolveLinks =
    sortedSet ((e.links.getD []).flatMap chapter99Codes
      ++ (((e.footnotes.map Footnotes.texts).getD []
        ++ (e.sourceFootnotes.map Footnotes.fragmentTexts).getD []).flatMap chapter99Codes)) := by
  simp only [resolveLinks, List.flatMap_append, List.append_assoc]

lemma increasing_resolveLinks (e : Entry) : Increasing e.resolveLinks := increasing_sortedSet _

lemma resolveLinks_stored (e : Entry) :
    Entry.resolveLinks { e with links := some e.resolveLinks } = e.resolveLinks := by
  refine (increasing_resolveLinks _).eq_of_mem_iff (increasing_resolveLinks e) fun t => ?_
  rw [resolveLinks_eq, mem_sortedSet, List.mem_append, Option.getD_some, flatMap_resolveLinks,
    resolveLinks_eq e, mem_sortedSet, List.mem_append]
  tauto

end Entry

lemma normalizeLinks_resolveLinks (e : Entry) : normalizeLinks e.resolveLinks = e.resolveLinks := by
  have hmap : (e.resolveLinks.map fun s => String.ofList (trim s.toList)) = e.resolveLinks := by
    refine (List.map_congr_left fun s hs => ?_).trans (List.map_id _)
    obtain ⟨code, hc, rfl⟩ := Entry.isCode_of_mem_resolveLinks hs
    rw [String.toList_ofList, hc.trimmed.trim_eq, id]
  have hfilter : e.resolveLinks.filter (· ≠ "") = e.resolveLinks := by
    refine List.filter_eq_self.mpr fun s hs => ?_
    obtain ⟨code, hc, rfl⟩ := Entry.isCode_of_mem_resolveLinks hs
    obtain ⟨cs, rfl⟩ := List.head?_eq_some_iff.mp hc.ends.1
    simp
  unfold normalizeLinks
  rw [hmap, hfilter, e.increasing_resolveLinks.sortedSet_eq]

end Tariff
