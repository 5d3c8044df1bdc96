import Mathlib.Algebra.Group.Int.Defs
import Mathlib.Tactic.Common
import Mathlib.Tactic.SplitIfs
import Tariff.Proofs.Json.Steps

/-!
The integers of a text are of 64 bits, signed or unsigned: a numeral that is larger is read as a
floating-point number. So are all integers of the document that is read from a text.
-/

namespace Tariff.Json

open Document (Frame State Step Reads)

def Number.InRange : Number → Prop
  | .integer n => -2 ^ 63 ≤ n ∧ n < 2 ^ 64
  | .float _ => True

/-- A token whose number, if it is one with a value, is in range. -/
def Token.InRange (t : Token) : Prop := ∀ n, t = .number (some n) → n.InRange

inductive Document.Ranged : Document → Prop where
  | null : Ranged .null
  | bool {b : Bool} : Ranged (.bool b)
  | string {s : Option String} : Ranged (.string s)
  | number {n : Option Number} : (∀ m, n = some m → m.InRange) → Ranged (.number n)
  | array {xs : List Document} : (∀ d ∈ xs, Ranged d) → Ranged (.array xs)
  | object {fs : List (Option String × Document)} : (∀ p ∈ fs, Ranged p.2) → Ranged (.object fs)

def Document.Frame.Ranged : Frame → Prop
  | .array done => ∀ d ∈ done, d.Ranged
  | .object done _ => ∀ p ∈ done, p.2.Ranged

def Document.State.Ranged : State → Prop
  | .due outer => ∀ f ∈ outer, f.Ranged
  | .read outer d => (∀ f ∈ outer, f.Ranged) ∧ d.Ranged

/-! ### Tokens -/

lemma absorb_lt (ds : List Char) {n : Nat} (h : n < Nat.pow 2 64) :
    (absorb n ds).1 < Nat.pow 2 64 := by
  induction ds generalizing n with
  | nil => exact h
  | cons d ds ih =>
    unfold absorb
    dsimp only
    split_ifs with hn
    · exact ih hn
    · exact h

lemma inRange_value? {l : Numeral} {n : Number} (h : l.value? = some n) : n.InRange := by
  have hpow : Nat.pow 2 64 = 18446744073709551616 := rfl
  have hpow' : Nat.pow 2 63 = 9223372036854775808 := rfl
  have hlt := absorb_lt l.whole (n := 0) (by omega)
  unfold Numeral.value? at h
  dsimp only at h
  split at h
  · split at h
    · obtain ⟨x, -, rfl⟩ := Option.map_eq_some_iff.mp h
      trivial
    · split at h
      · cases h
        constructor <;> omega
      · split at h
        · cases h
          trivial
        · cases h
          constructor <;> omega
  · obtain ⟨x, -, rfl⟩ := Option.map_eq_some_iff.mp h
    trivial

lemma inRange_takeToken {c : Char} {cs : List Char} {t : Token} {k : Nat}
    (h : takeToken c cs = some (t, k)) : t.InRange := by
  rintro n rfl
  unfold takeToken at h
  split at h
  case h_7 => obtain ⟨p, -, hp⟩ := Option.map_eq_some_iff.mp h; cases hp
  case h_11 =>
    obtain ⟨⟨l, j⟩, -, hl⟩ := Option.map_eq_some_iff.mp h
    rw [Prod.mk.injEq, Token.number.injEq] at hl
    exact inRange_value? hl.1
  case h_8 | h_9 | h_10 => split_ifs at h; cases h
  all_goals cases h

lemma inRange_tokensFrom (s : List Char) : ∀ {skip : Nat} {ts : List Token},
    tokensFrom skip s = some ts → ∀ t ∈ ts, t.InRange := by
  induction s with
  | nil =>
    intro skip ts h
    cases skip <;> cases h <;> simp
  | cons c cs ih =>
    intro skip ts h
    cases skip with
    | succ skip => exact ih h
    | zero =>
      rw [tokensFrom] at h
      split_ifs at h
      · exact ih h
      · obtain ⟨⟨t, k⟩, ht, h⟩ := Option.bind_eq_some_iff.mp h
        obtain ⟨ts', hts, rfl⟩ := Option.map_eq_some_iff.mp h
        exact List.forall_mem_cons.mpr ⟨inRange_takeToken ht, ih hts⟩

/-! ### Documents -/

lemma Token.ranged_of_single? {t : Token} {d : Document} (ht : t.InRange)
    (h : t.single? = some d) : d.Ranged := by
  cases t <;> cases h
  case null => exact .null
  case bool => exact .bool
  case number n => exact .number fun m hm => ht m (congrArg Token.number hm)
  case string => exact .string

/-- A step keeps all numbers in range that have been read so far. -/
lemma Document.Step.ranged {s s' : State} {pre ts : List Token} (h : Step s pre ts s')
    (hs : s.Ranged) (hpre : ∀ t ∈ pre, t.InRange) : s'.Ranged := by
  cases h with
  | single hd => exact ⟨hs, Token.ranged_of_single? (hpre _ (List.mem_singleton_self _)) hd⟩
  | emptyArray => exact ⟨hs, .array (List.forall_mem_nil _)⟩
  | emptyObject => exact ⟨hs, .object (List.forall_mem_nil _)⟩
  | @beginArray outer ts =>
    have hframe : (Frame.array []).Ranged := List.forall_mem_nil _
    exact List.forall_mem_cons.mpr ⟨hframe, hs⟩
  | @beginObject outer k ts =>
    have hframe : (Frame.object [] k).Ranged := List.forall_mem_nil _
    exact List.forall_mem_cons.mpr ⟨hframe, hs⟩
  | @nextItem outer done d ts =>
    obtain ⟨hdone, houter⟩ := List.forall_mem_cons.mp hs.1
    have hframe : (Frame.array (d :: done)).Ranged := List.forall_mem_cons.mpr ⟨hs.2, hdone⟩
    exact List.forall_mem_cons.mpr ⟨hframe, houter⟩
  | @nextField outer done name k d ts =>
    obtain ⟨hdone, houter⟩ := List.forall_mem_cons.mp hs.1
    have hframe : (Frame.object ((name, d) :: done) k).Ranged :=
      List.forall_mem_cons.mpr ⟨hs.2, hdone⟩
    exact List.forall_mem_cons.mpr ⟨hframe, houter⟩
  | @endArray outer done d ts =>
    obtain ⟨hdone, houter⟩ := List.forall_mem_cons.mp hs.1
    have hall : ∀ x ∈ d :: done, x.Ranged := List.forall_mem_cons.mpr ⟨hs.2, hdone⟩
    exact ⟨houter, .array fun x hx => hall x (List.mem_reverse.mp hx)⟩
  | @endObject outer done name d ts =>
    obtain ⟨hdone, houter⟩ := List.forall_mem_cons.mp hs.1
    have hall : ∀ p ∈ (name, d) :: done, p.2.Ranged := List.forall_mem_cons.mpr ⟨hs.2, hdone⟩
    exact ⟨houter, .object fun p hp => hall p (List.mem_reverse.mp hp)⟩

lemma Document.Reads.ranged {s : State} {ts : List Token} {D : Document} (h : Reads s ts D)
    (hs : s.Ranged) (hts : ∀ t ∈ ts, t.InRange) : D.Ranged := by
  induction h with
  | done => exact hs.2
  | step hstep _ ih =>
    obtain ⟨hpre, hts⟩ := List.forall_mem_append.mp hts
    exact ih (hstep.ranged hs hpre) hts

/-- **The numbers of a document that is read are in range.** -/
theorem ranged_read? {s : List Char} {d : Document} (h : Document.read? s = some d) : d.Ranged := by
  obtain ⟨ts, hts, h⟩ := Document.read?_eq_some_iff.mp h
  exact h.ranged (List.forall_mem_nil _) (inRange_tokensFrom s hts)

end Tariff.Json
