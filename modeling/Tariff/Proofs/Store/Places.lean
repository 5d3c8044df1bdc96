import Mathlib.Data.List.Basic
import Tariff.Store.Basic

/-!
The places of a store. A code names the last entry that has it, and a write at some places changes
an entry by the updates made at its own place, in order.
-/

namespace Tariff.Store

variable {υ : Type}

/-! ### The place that a code names -/

lemma lastPlace?_eq_none_iff {code : String} {es : List Entry} :
    lastPlace? code es = none ↔ ∀ e ∈ es, e.code ≠ code := by
  induction es with
  | nil => simp [lastPlace?]
  | cons e es ih =>
    unfold lastPlace?
    rw [List.forall_mem_cons, ← ih]
    cases lastPlace? code es with
    | none => simp
    | some i => simp

lemma lastPlace?_eq_some_iff {code : String} {es : List Entry} {i : Nat} :
    lastPlace? code es = some i ↔ (∃ e, es[i]? = some e ∧ e.code = code) ∧
      ∀ j e, i < j → es[j]? = some e → e.code ≠ code := by
  induction es generalizing i with
  | nil => simp [lastPlace?]
  | cons e es ih =>
    unfold lastPlace?
    cases h : lastPlace? code es with
    | some k =>
      obtain ⟨⟨e', he', hc'⟩, hlast⟩ := ih.mp h
      cases i with
      | zero =>
        refine iff_of_false (by simp) fun hr => ?_
        exact hr.2 (k + 1) e' (by omega) (by simpa using he') hc'
      | succ i =>
        have hk : (some (k + 1) = some (i + 1)) ↔ lastPlace? code es = some i := by simp [h]
        rw [hk, ih]
        refine and_congr (by simp) ⟨fun hr j e hj he => ?_, fun hr j e hj he => ?_⟩
        · cases j with
          | zero => omega
          | succ j => exact hr j e (by omega) (by simpa using he)
        · exact hr (j + 1) e (by omega) (by simpa using he)
    | none =>
      have hn := lastPlace?_eq_none_iff.mp h
      cases i with
      | zero =>
        have hrest : ∀ j e', 0 < j → (e :: es)[j]? = some e' → e'.code ≠ code := by
          intro j e' hj he'
          obtain ⟨j, rfl⟩ := Nat.exists_eq_add_one.mpr hj
          exact hn e' (List.mem_of_getElem? (by simpa using he'))
        simp only [List.getElem?_cons_zero, Option.some.injEq, exists_eq_left',
          Option.ite_none_right_eq_some, and_true]
        exact ⟨fun hc => ⟨hc, hrest⟩, fun hr => hr.1⟩
      | succ i =>
        refine iff_of_false (by simp) ?_
        rintro ⟨⟨e', he', hc'⟩, -⟩
        exact hn e' (List.mem_of_getElem? (by simpa using he')) hc'

/-- Only the codes of the entries matter. -/
lemma lastPlace?_congr {code : String} {es es' : List Entry}
    (h : es.map (·.code) = es'.map (·.code)) : lastPlace? code es = lastPlace? code es' := by
  induction es generalizing es' with
  | nil => rw [List.map_nil, eq_comm, List.map_eq_nil_iff] at h; rw [h]
  | cons e es ih =>
    obtain ⟨e', es'', rfl⟩ : ∃ e' es'', es' = e' :: es'' :=
      List.exists_cons_of_ne_nil fun h0 => by simp [h0] at h
    rw [List.map_cons, List.map_cons, List.cons.injEq] at h
    simp only [lastPlace?, ih h.2, h.1]

/-! ### Distinct codes -/

lemma place?_of_nodup {s : Store} (hd : (s.entries.map (·.code)).Nodup) {i : Nat} {e : Entry}
    (he : s.entries[i]? = some e) : s.place? e.code = some i := by
  refine lastPlace?_eq_some_iff.mpr ⟨⟨e, he, rfl⟩, fun j e' hj he' hc => ?_⟩
  have hi : i < (s.entries.map (·.code)).length := by
    rw [List.length_map]
    exact (List.getElem?_eq_some_iff.mp he).1
  refine absurd ((List.getElem?_inj hi hd).mp ?_) (Nat.ne_of_lt hj)
  rw [List.getElem?_map, List.getElem?_map, he, he', Option.map_some, Option.map_some, hc]

lemma filter_code_of_nodup {es : List Entry} (hd : (es.map (·.code)).Nodup) {e : Entry}
    (he : e ∈ es) : es.filter (·.code = e.code) = [e] := by
  induction es with
  | nil => cases he
  | cons x xs ih =>
    rw [List.map_cons, List.nodup_cons] at hd
    rcases List.mem_cons.mp he with rfl | hx
    · rw [List.filter_cons_of_pos (by simp), List.filter_eq_nil_iff.mpr fun y hy hc => hd.1 ?_]
      rw [← of_decide_eq_true hc]
      exact List.mem_map_of_mem hy
    · rw [List.filter_cons_of_neg ?_, ih hd.2 hx]
      intro hc
      refine hd.1 ?_
      rw [of_decide_eq_true hc]
      exact List.mem_map_of_mem hx

/-! ### Writes -/

def updatesAt (i : Nat) (us : List (Nat × υ)) : List υ :=
  us.filterMap fun (j, u) => if j = i then some u else none

lemma getElem?_writeAt (apply : Entry → υ → Entry) (es : List Entry) (us : List (Nat × υ))
    (i : Nat) :
    (writeAt apply es us)[i]? = es[i]?.map fun e => (updatesAt i us).foldl apply e := by
  induction us generalizing es with
  | nil => simp [writeAt, updatesAt]
  | cons p us ih =>
    obtain ⟨j, u⟩ := p
    have hw : writeAt apply es ((j, u) :: us) = writeAt apply (es.modify j (apply · u)) us := rfl
    rw [hw, ih, List.getElem?_modify]
    by_cases hj : j = i
    · simp [updatesAt, hj, Option.map_map, Function.comp_def]
    · simp [updatesAt, hj]

def addressed (code : υ → String) (es : List Entry) (us : List υ) : List (Nat × υ) :=
  us.map fun u => ((lastPlace? (code u) es).getD 0, u)

lemma addressed_congr {code : υ → String} {es es' : List Entry}
    (h : es.map (·.code) = es'.map (·.code)) (us : List υ) :
    addressed code es us = addressed code es' us := by
  unfold addressed
  simp only [lastPlace?_congr h]

/-- Of the updates that name entries of the list, those with its code are made at the place that
the code names, and none at any other place. -/
lemma updatesAt_addressed {code : υ → String} {es : List Entry} {us : List υ}
    (hu : ∀ u ∈ us, ∃ e ∈ es, e.code = code u) {i : Nat} {e : Entry} (he : es[i]? = some e) :
    updatesAt i (addressed code es us) =
      if lastPlace? e.code es = some i then us.filter (code · = e.code) else [] := by
  have hplace : ∀ u ∈ us, (lastPlace? (code u) es).getD 0 = i ↔
      lastPlace? e.code es = some i ∧ code u = e.code := by
    intro u hu'
    obtain ⟨e', he', hc'⟩ := hu u hu'
    obtain ⟨k, hk⟩ : ∃ k, lastPlace? (code u) es = some k :=
      Option.ne_none_iff_exists'.mp fun hn => lastPlace?_eq_none_iff.mp hn e' he' hc'
    rw [hk, Option.getD_some]
    constructor
    · rintro rfl
      obtain ⟨⟨e'', he'', hc''⟩, -⟩ := lastPlace?_eq_some_iff.mp hk
      rw [he, Option.some.injEq] at he''
      subst he''
      exact ⟨by rw [hc'', hk], hc''.symm⟩
    · rintro ⟨hi, hc⟩
      rw [hc, hi] at hk
      exact (Option.some.inj hk).symm
  unfold updatesAt addressed
  rw [List.filterMap_map]
  split_ifs with hi
  · rw [← List.filterMap_eq_filter]
    refine List.filterMap_congr fun u hu' => ?_
    simp only [Function.comp_apply, Option.guard, hplace u hu', hi, true_and, decide_eq_true_eq]
  · rw [List.filterMap_eq_nil_iff]
    intro u hu'
    simp only [Function.comp_apply, hplace u hu', hi, false_and, if_false]

lemma writeAt_append (apply : Entry → υ → Entry) (es : List Entry) (us vs : List (Nat × υ)) :
    writeAt apply es (us ++ vs) = writeAt apply (writeAt apply es us) vs :=
  List.foldl_append

lemma map_code_writeAt {apply : Entry → υ → Entry} (h : ∀ e u, (apply e u).code = e.code)
    (es : List Entry) (us : List (Nat × υ)) :
    (writeAt apply es us).map (·.code) = es.map (·.code) := by
  have hfold (us : List υ) : ∀ e, (us.foldl apply e).code = e.code := by
    induction us with
    | nil => exact fun _ => rfl
    | cons u us ih => exact fun e => (ih _).trans (h e u)
  refine List.ext_getElem? fun i => ?_
  rw [List.getElem?_map, List.getElem?_map, getElem?_writeAt, Option.map_map]
  exact congrArg (Option.map · _) (funext fun e => hfold _ e)

end Tariff.Store
