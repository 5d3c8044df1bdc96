import Tariff.Proofs.Store.Idempotence
import Tariff.Proofs.Store.Steps

/-!
Syntheses of a store, one after the other. An entry is written at most twice: what is written never
has a list of countries that names none, and such a list is all that would make a written entry be
written again.
-/

namespace Tariff

open Synthesis (ofEntry ordinary outcomes settle written stats)
open Adjustment (Headings NamesNoCountry nonNtrCountries)

/-! ### One entry -/

namespace Synthesis

variable (now now' now'' : Instant) (h : Headings) (e : Entry)

/-- The list that is written is empty, which counts as missing, or names a country. -/
lemma not_namesNoCountry_written : ¬NamesNoCountry (written now h e) := by
  rintro ⟨list, hlist, hne, hblank⟩
  rw [nonNtr_written, Option.some.injEq] at hlist
  have hn : nonNtrCountries e ≠ [] := by rwa [hlist]
  refine hn ?_
  rw [← nonNtrCountries_written now h e hn, Adjustment.nonNtrCountries_eq_nil_iff]
  exact ⟨list, by rw [nonNtr_written, hlist], hne, hblank⟩

/-- **An entry is written at most twice.** -/
theorem changed_settle_settle :
    (ofEntry now'' h (settle now' h (settle now h e))).changed = false := by
  rw [← Bool.not_eq_true, changed_settle]
  rintro ⟨hagain, hnone⟩
  have hfirst := ((changed_settle now now' h e).mp hagain).1
  have hsettle : settle now h e = written now h e := if_pos hfirst
  rw [hsettle] at hnone
  exact not_namesNoCountry_written now h e hnone

end Synthesis

/-! ### A store -/

namespace Store

def Stable (s : Store) : Prop := ∀ now, ∀ x ∈ outcomes now s.entries, x.changed = false

lemma stable_iff {s : Store} : s.Stable ↔ ∀ now, ∀ e ∈ ordinary s.entries,
    (ofEntry now (Headings.ofEntries s.entries) e).changed = false := by
  unfold Stable outcomes
  simp only [List.forall_mem_map]

lemma stable_synthesized {s : Store} (hd : (s.entries.map (·.code)).Nodup) (now now' : Instant)
    (b b' : Nat) : Stable ⟨Store.synthesized ⟨s.synthesized now, b⟩ now', b'⟩ := by
  have hd' : ((s.synthesized now).map (·.code)).Nodup := by rwa [map_code_synthesized]
  rw [stable_iff]
  intro now'' e he
  -- the headings stay the same, and each ordinary entry has been settled twice
  dsimp only at he ⊢
  rw [ofEntries_synthesized hd' now', ofEntries_synthesized hd now]
  rw [ordinary_synthesized hd' now', ordinary_synthesized hd now, ofEntries_synthesized hd now]
    at he
  obtain ⟨e', he', rfl⟩ := List.mem_map.mp he
  obtain ⟨e'', -, rfl⟩ := List.mem_map.mp he'
  exact Synthesis.changed_settle_settle now now' now'' _ e''

structure Settings where
  now : Instant
  batchSize : Nat
  workers : Nat

def afterSyntheses (s : Store) (calls : Nat → Settings) : Nat → Store
  | 0 => s
  | n + 1 =>
    ((s.afterSyntheses calls n).synthesize
      (calls n).now (calls n).batchSize (calls n).workers).1

variable {s : Store} (calls : Nat → Settings)

lemma stable_afterSyntheses_two (hd : (s.entries.map (·.code)).Nodup) :
    (s.afterSyntheses calls 2).Stable := by
  simp only [afterSyntheses, synthesize_eq]
  exact stable_synthesized hd _ _ _ _

lemma afterSyntheses_of_stable {m : Nat} (hm : (s.afterSyntheses calls m).Stable) (n : Nat) :
    s.afterSyntheses calls (m + n) = s.afterSyntheses calls m := by
  induction n with
  | zero => rfl
  | succ n ih =>
    rw [← Nat.add_assoc, afterSyntheses, ih, synthesize_of_unchanged _ _ (hm _)]

/-- **Syntheses converge**: each of them succeeds, only the first two can write, and from the third
on the store stays as it is. -/
theorem synthesize_converges (hd : (s.entries.map (·.code)).Nodup) (n : Nat) :
    ∃ r, (s.afterSyntheses calls n).synthesize
        (calls n).now (calls n).batchSize (calls n).workers =
          (s.afterSyntheses calls (n + 1), .ok r) ∧
      (2 ≤ n → r.updated = 0 ∧ s.afterSyntheses calls (n + 1) = s.afterSyntheses calls 2) := by
  have hsucceeds := synthesize_eq (s.afterSyntheses calls n)
    (calls n).now (calls n).batchSize (calls n).workers
  refine ⟨stats (outcomes (calls n).now (s.afterSyntheses calls n).entries), ?_, fun hn => ?_⟩
  · rw [afterSyntheses, hsucceeds]
  · have hstable := stable_afterSyntheses_two calls hd
    have hkept (k : Nat) : s.afterSyntheses calls (2 + k) = s.afterSyntheses calls 2 :=
      afterSyntheses_of_stable calls hstable k
    obtain ⟨k, rfl⟩ := Nat.exists_eq_add_of_le hn
    refine ⟨?_, hkept (k + 1)⟩
    rw [hkept k]
    exact List.countP_eq_zero.mpr fun x hx => by simp [hstable _ x hx]

theorem synthesize_converges_blank_list :
    let s := ofEntries [{ code := "0101", chapter := "01", nonNtr := some [" "] }]
    let calls : Nat → Settings := fun n => ⟨⟨n, 0⟩, n, 4⟩
    (s.entries.map (·.code)).Nodup ∧
    ∃ r, (s.afterSyntheses calls 2).synthesize ⟨2, 0⟩ 2 4 = (s.afterSyntheses calls 3, .ok r) ∧
      r.updated = 0 ∧ s.afterSyntheses calls 3 = s.afterSyntheses calls 2 := by
  intro s calls
  obtain ⟨r, hr, hstays⟩ := synthesize_converges (s := s) calls (by decide) 2
  exact ⟨by decide, r, hr, hstays (by decide)⟩

end Store

end Tariff
