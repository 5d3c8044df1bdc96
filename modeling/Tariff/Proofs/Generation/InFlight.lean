import Mathlib.Data.List.Basic
import Tariff.Generation.InFlight

/-!
Calls under way. Whatever the limit and the times, each call ends once, so the results are those of
the calls in some order.
-/

namespace Tariff.Generation

open scoped List

variable {α : Type}

lemma waiting_perm (finish : Nat) (a : α) (running : List (Nat × α)) :
    (waiting finish a running).Perm ((finish, a) :: running) := by
  induction running with
  | nil => rfl
  | cons x rest ih =>
    unfold waiting
    split_ifs
    · rfl
    · exact (ih.cons x).trans (.swap _ _ _)

lemma foldl_waiting_perm (calls running : List (Nat × α)) :
    (calls.foldl (fun running (d, a) => waiting d a running) running).Perm (calls ++ running) := by
  induction calls generalizing running with
  | nil => rfl
  | cons x rest ih =>
    refine (ih _).trans (((waiting_perm x.1 x.2 running).append_left rest).trans ?_)
    exact List.perm_middle

lemma finishing_perm (running later : List (Nat × α)) :
    (finishing running later).Perm ((running ++ later).map (·.2)) := by
  fun_induction finishing running later with
  | case1 => rfl
  | case2 t a running ih => exact ih.cons a
  | case3 t a running d b later ih =>
    refine List.Perm.cons a ?_
    have hw : ((waiting (t + d) b running).map (·.2)).Perm (b :: running.map (·.2)) :=
      (waiting_perm (t + d) b running).map _
    calc finishing (waiting (t + d) b running) later
      _ ~ (waiting (t + d) b running ++ later).map (·.2) := ih
      _ = (waiting (t + d) b running).map (·.2) ++ later.map (·.2) := List.map_append
      _ ~ b :: running.map (·.2) ++ later.map (·.2) := hw.append_right _
      _ ~ running.map (·.2) ++ b :: later.map (·.2) := List.perm_middle.symm
      _ = (running ++ (d, b) :: later).map (·.2) := by simp

/-- **Each call ends once**. -/
theorem inFlight_perm (limit : Nat) (calls : List (Nat × α)) :
    (inFlight limit calls).Perm (calls.map (·.2)) := by
  have h := foldl_waiting_perm (calls.take limit) []
  rw [List.append_nil] at h
  refine (finishing_perm _ _).trans (((h.append_right _).map _).trans ?_)
  rw [List.take_append_drop]

/-- What comes of calls came of one of them. -/
lemma exists_of_mem_inFlight {limit : Nat} {calls : List (Nat × α)} {a : α}
    (h : a ∈ inFlight limit calls) : ∃ t, (t, a) ∈ calls := by
  obtain ⟨⟨t, b⟩, hx, rfl⟩ := List.mem_map.mp ((inFlight_perm limit calls).mem_iff.mp h)
  exact ⟨t, hx⟩

end Tariff.Generation
