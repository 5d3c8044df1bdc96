import Tariff.Proofs.Formula.Gate
import Tariff.Proofs.Formula.Literal
import Tariff.Proofs.Formula.Names

/-!
Sums of products, each of a variable and a number: the formulas of rates. Such a formula passes the
gate and names the variables of its products, as long as its numbers are finite; with a number that
is not finite the gate refuses it.
-/

namespace Tariff.Formula

open Tariff.Text Tariff.Decimal

def productText (v : Variable) (x : Float) : String := v.name ++ " * " ++ literal x

def sumText (ps : List (Variable × Float)) : String :=
  " + ".intercalate (ps.map fun p => productText p.1 p.2)

lemma toList_productText (v : Variable) (x : Float) :
    (productText v x).toList = v.name.toList ++ ' ' :: '*' :: ' ' :: (literal x).toList := by
  simp [productText, String.toList_append]

lemma sumText_singleton (p : Variable × Float) : sumText [p] = productText p.1 p.2 := by
  simp [sumText]

lemma toList_sumText_cons (p q : Variable × Float) (ps : List (Variable × Float)) :
    (sumText (p :: q :: ps)).toList =
      (productText p.1 p.2).toList ++ ' ' :: '+' :: ' ' :: (sumText (q :: ps)).toList := by
  simp [sumText, String.intercalate_cons_cons]

/-! ### Characters and runs -/

lemma mem_sumText {ps : List (Variable × Float)} {c : Char} (hc : c ∈ (sumText ps).toList) :
    c ∈ [' ', '*', '+'] ∨ ∃ p ∈ ps, c ∈ p.1.name.toList ∨ c ∈ (literal p.2).toList := by
  have hproduct {v : Variable} {x : Float} (hc : c ∈ (productText v x).toList) :
      c ∈ [' ', '*', '+'] ∨ c ∈ v.name.toList ∨ c ∈ (literal x).toList := by
    rw [toList_productText, List.mem_append] at hc
    simp only [List.mem_cons] at hc
    rcases hc with hc | rfl | rfl | rfl | hc
    · exact .inr (.inl hc)
    · exact .inl (by decide)
    · exact .inl (by decide)
    · exact .inl (by decide)
    · exact .inr (.inr hc)
  induction ps with
  | nil => simp [sumText] at hc
  | cons p ps ih =>
    rcases ps with - | ⟨q, qs⟩
    · rw [sumText_singleton] at hc
      exact (hproduct hc).imp_right fun h => ⟨p, by simp, h⟩
    · rw [toList_sumText_cons, List.mem_append] at hc
      rcases hc with hc | hc
      · exact (hproduct hc).imp_right fun h => ⟨p, by simp, h⟩
      · simp only [List.mem_cons] at hc
        rcases hc with rfl | rfl | rfl | hc
        · exact .inl (by decide)
        · exact .inl (by decide)
        · exact .inl (by decide)
        · exact (ih hc).imp_right fun ⟨r, hr, h⟩ => ⟨r, List.mem_cons_of_mem _ hr, h⟩

lemma runsOf_sumText {p : Char → Bool} (hb : p ' ' = false) (hm : p '*' = false)
    (ha : p '+' = false) (ps : List (Variable × Float)) :
    runsOf p (sumText ps).toList =
      ps.flatMap fun q => runsOf p q.1.name.toList ++ runsOf p (literal q.2).toList := by
  have hproduct (v : Variable) (x : Float) : runsOf p (productText v x).toList =
      runsOf p v.name.toList ++ runsOf p (literal x).toList := by
    rw [toList_productText, runsOf_append_cons hb, runsOf_cons_of_neg hm, runsOf_cons_of_neg hb]
  induction ps with
  | nil => rfl
  | cons q ps ih =>
    rcases ps with - | ⟨r, rs⟩
    · rw [sumText_singleton, hproduct]
      simp
    · rw [toList_sumText_cons, runsOf_append_cons hb, runsOf_cons_of_neg ha, runsOf_cons_of_neg hb,
        hproduct, ih]
      rfl

/-! ### The parts of a product -/

lemma mem_numeral {s : List Char} (hs : IsNumeral s) {c : Char} (hc : c ∈ s) :
    isAsciiDigit c = true ∨ c = '.' ∨ c = '-' := by
  obtain ⟨sign, d, hsign, hd, rfl⟩ := hs
  rcases List.mem_append.mp hc with hc | hc
  · rcases hsign with rfl | rfl
    · cases hc
    · exact .inr (.inr (List.mem_singleton.mp hc))
  · exact (hd.mem hc).imp_right .inl

lemma isNameChar_of_mem_numeral {s : List Char} (hs : IsNumeral s) :
    ∀ c ∈ s, isNameChar c = false := by
  intro c hc
  rcases mem_numeral hs hc with h | rfl | rfl
  · exact isNameChar_of_isNumberChar (Bool.or_eq_true_iff.mpr (.inl h))
  · decide
  · decide

/-! ### The gate -/

/-- A product with a finite number. -/
def AllFinite (ps : List (Variable × Float)) : Prop := ∀ p ∈ ps, p.2.isFinite = true

lemma names_sumText {ps : List (Variable × Float)} (h : AllFinite ps) :
    names (sumText ps).toList = ps.map (·.1.name) := by
  unfold names
  rw [runsOf_sumText (by decide) (by decide) (by decide), List.map_flatMap]
  rw [List.flatMap_congr fun p hp => ?_, List.flatMap_pure_eq_map]
  have hname := name_variable p.1
  rw [runsOf_of_all hname.1 fun c hc => (hname.2 c hc).1,
    runsOf_of_not (isNameChar_of_mem_numeral (isNumeral_literal (h p hp)))]
  simp

lemma isAllowed_of_mem_sumText {ps : List (Variable × Float)} (h : AllFinite ps) {c : Char}
    (hc : c ∈ (sumText ps).toList) : isAllowed c = true ∧ c ≠ '(' ∧ c ≠ ')' := by
  rcases mem_sumText hc with hc | ⟨p, hp, hc | hc⟩
  · have hall : [' ', '*', '+'].all (fun c => isAllowed c && c != '(' && c != ')') = true := by
      decide
    simpa [and_assoc] using List.all_eq_true.mp hall c hc
  · have hall : p.1.name.toList.all (fun c => isAllowed c && c != '(' && c != ')') = true := by
      cases p.1 <;> decide
    simpa [and_assoc] using List.all_eq_true.mp hall c hc
  · rcases mem_numeral (isNumeral_literal (h p hp)) hc with h | rfl | rfl
    · refine ⟨by simp [isAllowed, h], ?_, ?_⟩ <;> (rintro rfl; cases h)
    · decide
    · decide

lemma accepted_sumText {ps : List (Variable × Float)} (hne : ps ≠ []) (h : AllFinite ps) :
    Accepted (sumText ps) := by
  obtain ⟨q, qs, rfl⟩ := List.exists_cons_of_ne_nil hne
  rw [accepted_iff]
  refine ⟨?_, fun c hc => (isAllowed_of_mem_sumText h hc).1, ?_, ?_⟩
  · by_contra hb
    rw [Bool.not_eq_false, List.all_eq_true] at hb
    have hn := names_sumText h
    have hruns : runsOf isNameChar (sumText (q :: qs)).toList = [] := runsOf_of_not fun c hc => by
      by_contra hw
      have := (isBlank_of_isNameChar (by simpa using hw)).1
      rw [hb c hc] at this
      cases this
    unfold names at hn
    rw [hruns] at hn
    cases hn
  · rw [names_sumText h]
    intro w hw
    obtain ⟨p, -, rfl⟩ := List.mem_map.mp hw
    cases p.1 <;> decide
  · rw [balanced_of_no_parentheses fun c hc => (isAllowed_of_mem_sumText h hc).2]
    rfl

/-! ### Variables -/

lemma named_sumText {ps : List (Variable × Float)} (h : AllFinite ps) :
    Variable.named (sumText ps) = Variable.canonical (ps.map (·.1)) := by
  unfold Variable.named words
  rw [runsOf_sumText (by decide) (by decide) (by decide), List.filterMap_flatMap]
  rw [List.flatMap_congr fun p hp => ?_, List.flatMap_pure_eq_map]
  have hname := name_variable p.1
  have hnumeral := variables_of_not (isNameChar_of_mem_numeral (isNumeral_literal (h p hp)))
  rw [List.filterMap_append, hnumeral, List.append_nil,
    runsOf_of_all hname.1 fun c hc => (hname.2 c hc).2]
  simp

/-! ### Tokens -/

lemma isNumberChar_of_mem_decimal {s : List Char} (hs : IsDecimal s) :
    ∀ c ∈ s, isNumberChar c = true := by
  intro c hc
  rcases hs.mem hc with h | rfl
  · simp [isNumberChar, h]
  · decide

lemma lexes_decimal {s rest : List Char} {ts : List Token} {x : Float} (hs : IsDecimal s)
    (hx : read? s = some x) (hr : rest.head?.any isNumberChar = false) (h : Lexes rest ts) :
    Lexes (s ++ rest) (.number x :: ts) := by
  have hne : s ≠ [] := by
    obtain ⟨w, f, hw, -, -, rfl⟩ := hs
    simp [hw]
  exact h.number hne (isNumberChar_of_mem_decimal hs) hr hx

lemma lexes_productText (v : Variable) {x : Float} {rest : List Char} {ts : List Token}
    (h : Lexes ((literal x).toList ++ rest) ts) :
    Lexes ((productText v x).toList ++ rest) (.name v.name :: .op .mul :: ts) := by
  have hname := name_variable v
  have hspace : isBlank ' ' = true := by decide
  have hm := ((h.blank hspace).op .mul).blank hspace
  have := hm.name hname.1 (fun c hc => (hname.2 c hc).1) rfl
  rw [toList_productText, List.append_assoc]
  rwa [String.ofList_toList] at this

end Tariff.Formula
