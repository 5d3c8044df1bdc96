import Tariff.Proofs.Decimal.Unit
import Tariff.Proofs.Formula.Names
import Tariff.Proofs.Generation.Rows

/-!
What the fields of an answer give. A formula that is accepted has passed the gate, names nothing but
variables and bears the ones that it names; what is not accepted is refused for its shape or for its
formula.
-/

namespace Tariff.Generation

inductive Holds (answer : String) (j : Json) : Prop where
  | whole (h : readValue answer = .ok j)
  | row {rows : List Json} (h : readValue answer = .ok (.array rows)) (hj : j ∈ rows)

/-- A formula is accepted from an answer: as the answer to a single request, or in a row of the
answer to a batch. -/
inductive Accepts (answer : String) (c : Compiled) : Prop where
  | single (h : readSingle answer = .ok c)
  | row {expected : List Nat} {found : Indexed Compiled} {index : Nat}
      (h : readBatch expected answer = .ok found) (hc : (index, c) ∈ found)

lemma readFields_of_readSingle {answer : String} {c : Compiled} (h : readSingle answer = .ok c) :
    ∃ j, readValue answer = .ok j ∧ readFields j = .ok c := by
  obtain ⟨j, hj, h⟩ := bind_eq_ok.mp h
  cases j with
  | object fs => exact ⟨_, hj, h⟩
  | null | bool | number | string | array => cases h

lemma readFields_of_readRow {row : Json} {index : Nat} {c : Compiled}
    (h : readRow row = .ok (index, c)) : readFields row = .ok c := by
  cases row with
  | object fs =>
    obtain ⟨i, -, h⟩ := bind_eq_ok.mp h
    obtain ⟨c', hc, h⟩ := bind_eq_ok.mp h
    cases h
    exact hc
  | null | bool | number | string | array => cases h

lemma Accepts.exists_fields {answer : String} {c : Compiled} (h : Accepts answer c) :
    ∃ j, Holds answer j ∧ readFields j = .ok c := by
  cases h with
  | single h =>
    obtain ⟨j, hj, h⟩ := readFields_of_readSingle h
    exact ⟨j, .whole hj, h⟩
  | @row expected found index h hc =>
    have hl := lookup_readBatch expected answer index
    rw [h, Except.toOption, Option.bind_some, (ascending_readBatch h).lookup_of_mem hc] at hl
    split_ifs at hl
    obtain ⟨rows, row, hrows, hrow, hread⟩ := firstRow?_eq_some hl.symm
    exact ⟨row, .row hrows hrow, readFields_of_readRow hread⟩

/-! ### Fields -/

structure Vetted (j : Json) (c : Compiled) : Prop where
  accepted : Formula.Accepted c.formula
  known : unknownName? c.formula = none
  vars : c.vars = Variable.named c.formula
  method : c.method = .ai
  discounted : ∃ x, readConfidence j = .ok x ∧ c.confidence = discounted x

lemma vetted_of_readFields {j : Json} {c : Compiled} (h : readFields j = .ok c) : Vetted j c := by
  unfold readFields at h
  obtain ⟨formula, -, h⟩ := bind_eq_ok.mp h
  obtain ⟨listed, -, h⟩ := bind_eq_ok.mp h
  obtain ⟨confidence, hx, h⟩ := bind_eq_ok.mp h
  dsimp only at h
  -- the explanation is missing, a text, or refused
  split at h
  case h_3 => cases h
  all_goals
    unfold Formula.check at h
    cases hr : Formula.refusal? formula with
    | some r =>
      rw [hr] at h
      cases h
    | none =>
      rw [hr] at h
      dsimp only at h
      cases hn : unknownName? formula with
      | some w =>
        rw [hn] at h
        cases h
      | none =>
        rw [hn] at h
        dsimp only at h
        split_ifs at h
        cases h
        exact ⟨hr, hn, rfl, rfl, confidence, hx, rfl⟩

/-! ### Names -/

lemma ascii_of_isWordChar {c : Char} (h : isWordChar c = true) : c.toNat < 128 := by
  have hle {d : Char} (h : c.val ≤ d.val) (hd : d.toNat < 128) : c.toNat < 128 :=
    Nat.lt_of_le_of_lt (UInt32.le_iff_toNat_le.mp h) hd
  unfold isWordChar Char.isAlpha Char.isUpper Char.isLower at h
  simp only [Bool.or_eq_true, Bool.and_eq_true, decide_eq_true_eq] at h
  rcases h with (⟨-, h⟩ | ⟨-, h⟩) | h
  · exact hle h (by decide)
  · exact hle h (by decide)
  · rw [eq_of_beq h]
    decide

lemma isWordChar_of_isAllowed {c : Char} (h : Formula.isAllowed c = true) :
    isWordChar c = Formula.isNameChar c := by
  by_cases hc : c.toNat < 128
  · exact Text.forall_ascii (P := fun c => Formula.isAllowed c = true →
      isWordChar c = Formula.isNameChar c) (by decide +kernel) hc h
  · rw [Bool.eq_false_iff.mpr (mt ascii_of_isWordChar hc),
      Bool.eq_false_iff.mpr (mt Formula.ascii_of_isNameChar hc)]

/-- No name of an accepted formula but is a variable's. -/
lemma knownNames_of_unknownName? {formula : String} (ha : Formula.Accepted formula)
    (h : unknownName? formula = none) : Formula.KnownNames formula := by
  intro w hw
  obtain ⟨r, hr, rfl⟩ := List.mem_map.mp hw
  have hallowed := (Formula.accepted_iff.mp ha).2.1
  rw [← Text.runsOf_congr fun c hc => isWordChar_of_isAllowed (hallowed c hc)] at hr
  have := List.find?_eq_none.mp h _ (List.mem_map.mpr ⟨r, hr, rfl⟩)
  obtain ⟨v, hv⟩ := Option.ne_none_iff_exists'.mp (by simpa using this)
  exact ⟨v, Variable.eq_name_of_ofName? hv⟩

/-! ### Confidence -/

open Tariff.Decimal

lemma unit_of_readConfidence {j : Json} {x : Float} (h : readConfidence j = .ok x) :
    0 ≤ x ∧ x ≤ 1 := by
  obtain ⟨v, -, h⟩ := bind_eq_ok.mp h
  cases v with
  | number n =>
    dsimp only at h
    split_ifs at h with hx
    cases h
    exact hx
  | null | bool | string | array | object => cases h

lemma fraction_discount : Fraction discount :=
  ⟨7205759403792794, -56, by decide, by rfl, by decide⟩

/-- Of a confidence up to one no more than the discount is taken off, and nothing below zero. -/
lemma discounted_eq {x : Float} (h0 : 0 ≤ x) (h1 : x ≤ 1) :
    discounted x = max 0 (x - discount) := by
  have hle := sub_le_one h0 h1 fraction_discount
  have hmax : max 0 (x - discount) = if 0 ≤ x - discount then x - discount else 0 := rfl
  rw [hmax]
  unfold discounted
  dsimp only
  by_cases hlt : x - discount < 0
  · rw [if_pos hlt, if_neg fun h => not_lt_of_le h hlt]
  · rw [if_neg hlt, if_neg (not_lt_of_le hle), if_pos (zero_le_of_not_lt hle hlt)]

lemma unit_discounted {x : Float} (h0 : 0 ≤ x) (h1 : x ≤ 1) :
    0 ≤ discounted x ∧ discounted x ≤ 1 := by
  have hle := sub_le_one h0 h1 fraction_discount
  unfold discounted
  dsimp only
  by_cases hlt : x - discount < 0
  · rw [if_pos hlt]
    exact ⟨by decide +kernel, by decide +kernel⟩
  · rw [if_neg hlt, if_neg (not_lt_of_le hle)]
    exact ⟨zero_le_of_not_lt hle hlt, hle⟩

/-! ### Refusals -/

/-- What the answer to a request may be refused for. -/
inductive Failure.Refusal : Failure → Prop where
  | emptyAnswer : Refusal .emptyAnswer
  | malformed (text : String) : Refusal (.malformed text)
  | schema (v : Violation) : Refusal (.schema v)
  | unsafeFormula (formula : String) (d : Danger) : Refusal (.unsafeFormula formula d)

lemma refusal_of_field {f : Field} {j : Json} {e : Failure} (h : field f j = .error e) :
    e.Refusal := by
  unfold field at h
  split at h <;> cases h
  exact .schema _

lemma refusal_of_readFormulaText {j : Json} {e : Failure} (h : readFormulaText j = .error e) :
    e.Refusal := by
  rcases bind_eq_error.mp h with h | ⟨v, -, h⟩
  · exact refusal_of_field h
  · split at h <;> cases h
    exact .schema _

lemma refusal_of_readListed {j : Json} {e : Failure} (h : readListed j = .error e) :
    e.Refusal := by
  rcases bind_eq_error.mp h with h | ⟨v, -, h⟩
  · exact refusal_of_field h
  · split at h
    · rcases bind_eq_error.mp h with h | ⟨vs, -, h⟩
      · obtain ⟨x, -, h⟩ := exists_of_mapM_eq_error h
        unfold readVariable at h
        split at h
        · split at h <;> cases h
          exact .schema _
        · cases h
          exact .schema _
      · cases h
    · cases h
      exact .schema _

lemma refusal_of_readConfidence {j : Json} {e : Failure} (h : readConfidence j = .error e) :
    e.Refusal := by
  rcases bind_eq_error.mp h with h | ⟨v, -, h⟩
  · exact refusal_of_field h
  · split at h
    · dsimp only at h
      split_ifs at h
      cases h
      exact .schema _
    · cases h
      exact .schema _

lemma refusal_of_readFields {j : Json} {e : Failure} (h : readFields j = .error e) :
    e.Refusal := by
  rcases bind_eq_error.mp h with h | ⟨formula, -, h⟩
  · exact refusal_of_readFormulaText h
  rcases bind_eq_error.mp h with h | ⟨listed, -, h⟩
  · exact refusal_of_readListed h
  rcases bind_eq_error.mp h with h | ⟨confidence, -, h⟩
  · exact refusal_of_readConfidence h
  dsimp only at h
  split at h
  case h_3 =>
    cases h
    exact .schema _
  all_goals
    split at h
    · cases h
      exact .unsafeFormula _ _
    · split at h
      · cases h
        exact .unsafeFormula _ _
      · split_ifs at h
        cases h
        exact .schema _

lemma refusal_of_readSingle {answer : String} {e : Failure} (h : readSingle answer = .error e) :
    e.Refusal := by
  rcases bind_eq_error.mp h with h | ⟨j, -, h⟩
  · unfold readValue at h
    dsimp only at h
    split_ifs at h
    · cases h
      exact .emptyAnswer
    · split at h <;> cases h
      exact .malformed _
  · split at h
    · exact refusal_of_readFields h
    · cases h
      exact .schema _

end Tariff.Generation
