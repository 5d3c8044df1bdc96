import Mathlib.Data.Nat.Init
import Mathlib.Tactic.Common
import Tariff.Json.Document

/-!
What reading a document does at each step, and what it reads as a whole.

Between two steps a value is due or one has been read, inside frames that are still open. A step
takes one to three tokens off the front of the text. It looks at what follows these only to tell an
array that is empty, or a comma in front of a field, and what is cut off behind changes no step.
-/

namespace Tariff.Json

def Token.single? : Token → Option Document
  | .null => some .null
  | .bool b => some (.bool b)
  | .number n => some (.number n)
  | .string s => some (.string s)
  | _ => none

namespace Document

/-- Where the reading stands between two steps. -/
inductive State where
  | due (outer : List Frame)
  | read (outer : List Frame) (d : Document)

namespace State

/-- The document that is read from here on. -/
def run : State → List Token → Option Document
  | due outer, ts => valueDue outer ts
  | read outer d, ts => valueRead outer d ts

/-- The same place, with the frames `base` around all others. -/
def inside (base : List Frame) : State → State
  | due outer => due (outer ++ base)
  | read outer d => read (outer ++ base) d

end State

/-- `Step s pre ts s'`: in the state `s`, with the tokens `pre ++ ts` ahead, `pre` is read and
leads to the state `s'`. -/
inductive Step : State → List Token → List Token → State → Prop where
  | single {outer : List Frame} {t : Token} {d : Document} {ts : List Token} :
      t.single? = some d → Step (.due outer) [t] ts (.read outer d)
  | emptyArray {outer : List Frame} {ts : List Token} :
      Step (.due outer) [.beginArray, .endArray] ts (.read outer (.array []))
  | beginArray {outer : List Frame} {ts : List Token} : (∀ u, ts ≠ .endArray :: u) →
      Step (.due outer) [.beginArray] ts (.due (.array [] :: outer))
  | emptyObject {outer : List Frame} {ts : List Token} :
      Step (.due outer) [.beginObject, .endObject] ts (.read outer (.object []))
  | beginObject {outer : List Frame} {k : Option String} {ts : List Token} :
      Step (.due outer) [.beginObject, .string k, .colon] ts (.due (.object [] k :: outer))
  | nextItem {outer : List Frame} {done : List Document} {d : Document} {ts : List Token} :
      (∀ k u, ts ≠ .string k :: .colon :: u) →
      Step (.read (.array done :: outer) d) [.comma] ts (.due (.array (d :: done) :: outer))
  | nextField {outer : List Frame} {done : List (Option String × Document)}
      {name k : Option String} {d : Document} {ts : List Token} :
      Step (.read (.object done name :: outer) d) [.comma, .string k, .colon] ts
        (.due (.object ((name, d) :: done) k :: outer))
  | endArray {outer : List Frame} {done : List Document} {d : Document} {ts : List Token} :
      Step (.read (.array done :: outer) d) [.endArray] ts
        (.read outer (.array (d :: done).reverse))
  | endObject {outer : List Frame} {done : List (Option String × Document)}
      {name : Option String} {d : Document} {ts : List Token} :
      Step (.read (.object done name :: outer) d) [.endObject] ts
        (.read outer (.object ((name, d) :: done).reverse))

variable {s s' : State} {pre ts : List Token} {D : Document}

lemma Step.run_eq (h : Step s pre ts s') : s.run (pre ++ ts) = s'.run ts := by
  cases h with
  | @single outer t d ts hd => cases t <;> cases hd <;> exact valueDue.eq_def _ _
  | beginArray hts => exact valueDue.eq_6 _ _ hts
  | @nextItem outer done d ts hts =>
    change valueRead (.array done :: outer) d (.comma :: ts) = _
    rw [valueRead]
    · rfl
    · exact hts
  | emptyArray | emptyObject | beginObject => exact valueDue.eq_def _ _
  | nextField | endArray | endObject => exact valueRead.eq_def _ _ _

lemma Step.length_pos (h : Step s pre ts s') : 0 < pre.length := by
  cases h <;> exact Nat.succ_pos _

/-- A step goes the same way where the text ends sooner. -/
lemma Step.of_append {us : List Token} (h : Step s pre (ts ++ us) s') : Step s pre ts s' := by
  generalize hvs : ts ++ us = vs at h
  cases h with
  | single hd => exact .single hd
  | emptyArray => exact .emptyArray
  | beginArray hts =>
    refine .beginArray ?_
    rintro u rfl
    exact hts _ hvs.symm
  | emptyObject => exact .emptyObject
  | beginObject => exact .beginObject
  | nextItem hts =>
    refine .nextItem ?_
    rintro k u rfl
    exact hts _ _ hvs.symm
  | nextField => exact .nextField
  | endArray => exact .endArray
  | endObject => exact .endObject

/-- Only what has been read inside no frame of its own looks at the frames around it. -/
lemma Step.inside_cases {base : List Frame} (h : Step (s.inside base) pre ts s') :
    (∃ d, s = .read [] d) ∨ ∃ r, s' = r.inside base ∧ Step s pre ts r := by
  cases s with
  | due outer =>
    right
    cases h with
    | single hd => exact ⟨.read outer _, rfl, .single hd⟩
    | emptyArray => exact ⟨.read outer _, rfl, .emptyArray⟩
    | beginArray hts => exact ⟨.due (_ :: outer), rfl, .beginArray hts⟩
    | emptyObject => exact ⟨.read outer _, rfl, .emptyObject⟩
    | beginObject => exact ⟨.due (_ :: outer), rfl, .beginObject⟩
  | read outer d =>
    cases outer with
    | nil => exact .inl ⟨d, rfl⟩
    | cons f outer =>
      right
      cases h with
      | nextItem hts => exact ⟨.due (_ :: outer), rfl, .nextItem hts⟩
      | nextField => exact ⟨.due (_ :: outer), rfl, .nextField⟩
      | endArray => exact ⟨.read outer _, rfl, .endArray⟩
      | endObject => exact ⟨.read outer _, rfl, .endObject⟩

/-- What gives a document is at its end, or takes a step. -/
lemma exists_step (h : s.run ts = some D) : s = .read [] D ∧ ts = [] ∨
    ∃ pre us s', ts = pre ++ us ∧ Step s pre us s' := by
  cases s with
  | due outer =>
    right
    rw [State.run, valueDue.eq_def] at h
    split at h
    case h_1 ts => exact ⟨[.null], ts, _, rfl, .single rfl⟩
    case h_2 b ts => exact ⟨[.bool b], ts, _, rfl, .single rfl⟩
    case h_3 n ts => exact ⟨[.number n], ts, _, rfl, .single rfl⟩
    case h_4 k ts => exact ⟨[.string k], ts, _, rfl, .single rfl⟩
    case h_5 ts => exact ⟨[.beginArray, .endArray], ts, _, rfl, .emptyArray⟩
    case h_6 ts hts => exact ⟨[.beginArray], ts, _, rfl, .beginArray hts⟩
    case h_7 ts => exact ⟨[.beginObject, .endObject], ts, _, rfl, .emptyObject⟩
    case h_8 k ts => exact ⟨[.beginObject, .string k, .colon], ts, _, rfl, .beginObject⟩
    case h_9 => cases h
  | read outer d =>
    rw [State.run, valueRead.eq_def] at h
    split at h
    case h_1 =>
      split at h
      case isTrue ho =>
        cases h
        exact .inl ⟨by rw [List.isEmpty_iff.mp ho], rfl⟩
      case isFalse => cases h
    case h_2 k ts =>
      split at h
      case h_1 => exact .inr ⟨[.comma, .string k, .colon], ts, _, rfl, .nextField⟩
      case h_2 => cases h
    case h_3 ts hts =>
      split at h
      case h_1 => exact .inr ⟨[.comma], ts, _, rfl, .nextItem hts⟩
      case h_2 => cases h
    case h_4 ts =>
      split at h
      case h_1 => exact .inr ⟨[.endArray], ts, _, rfl, .endArray⟩
      case h_2 => cases h
    case h_5 ts =>
      split at h
      case h_1 => exact .inr ⟨[.endObject], ts, _, rfl, .endObject⟩
      case h_2 => cases h
    case h_6 => cases h

/-- A whole reading: its steps, down to a document inside no frame and no tokens ahead. -/
inductive Reads : State → List Token → Document → Prop where
  | done {D : Document} : Reads (.read [] D) [] D
  | step {s s' : State} {pre ts : List Token} {D : Document} :
      Step s pre ts s' → Reads s' ts D → Reads s (pre ++ ts) D

/-- **The reading is its steps**, one after another. -/
theorem run_eq_some_iff : s.run ts = some D ↔ Reads s ts D := by
  constructor
  · intro h
    -- each step takes a token, so the tokens ahead get fewer
    induction hn : ts.length using Nat.strong_induction_on generalizing s ts with
    | _ n ih =>
      obtain ⟨rfl, rfl⟩ | ⟨pre, us, s', rfl, hstep⟩ := exists_step h
      · exact .done
      · have hpos := hstep.length_pos
        rw [List.length_append] at hn
        exact .step hstep (ih us.length (by omega) (hstep.run_eq ▸ h) rfl)
  · intro h
    induction h with
    | done => exact valueRead.eq_def _ _ _
    | step hstep _ ih => exact hstep.run_eq.trans ih

lemma read?_eq_some_iff {text : List Char} :
    read? text = some D ↔ ∃ ts, tokens text = some ts ∧ Reads (.due []) ts D :=
  Option.bind_eq_some_iff.trans
    (exists_congr fun _ => and_congr_right fun _ => run_eq_some_iff (s := .due []))

/-- **What is read inside frames** is read up to the end of these first, whatever is around them. -/
theorem Reads.split {base : List Frame} (h : Reads (s.inside base) ts D) :
    ∃ ts₁ ts₂ d, ts = ts₁ ++ ts₂ ∧ Reads s ts₁ d ∧ Reads (.read base d) ts₂ D := by
  generalize hr : s.inside base = r at h
  induction h generalizing s with
  | done =>
    cases s with
    | due outer => cases hr
    | read outer d =>
      obtain ⟨houter, rfl⟩ := State.read.inj hr
      obtain ⟨rfl, rfl⟩ := List.append_eq_nil_iff.mp houter
      exact ⟨[], [], d, rfl, .done, .done⟩
  | @step r r' pre ts D hstep hreads ih =>
    subst hr
    obtain ⟨d, rfl⟩ | ⟨s', rfl, hstep'⟩ := hstep.inside_cases
    · exact ⟨[], pre ++ ts, d, rfl, .done, .step hstep hreads⟩
    · obtain ⟨ts₁, ts₂, d, rfl, h₁, h₂⟩ := ih rfl
      exact ⟨pre ++ ts₁, ts₂, d, (List.append_assoc ..).symm, .step hstep'.of_append h₁, h₂⟩

end Document

end Tariff.Json
