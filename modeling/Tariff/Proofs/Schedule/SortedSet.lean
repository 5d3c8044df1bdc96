import Mathlib.Data.List.Sort
import Mathlib.Data.String.Basic
import Tariff.Schedule.Link

/-!
Lists without repetition in increasing order, as sets: such a list is given by its members, so
putting it in order once more changes nothing.
-/

namespace Tariff

def Increasing (xs : List String) : Prop := xs.Pairwise (· < ·)

namespace sortedSet

@[simp] lemma mem_insert {xs : List String} {s t : String} :
    t ∈ insert xs s ↔ t = s ∨ t ∈ xs := by
  induction xs with
  | nil => simp [insert]
  | cons x xs ih =>
    unfold insert
    split_ifs with h1 h2
    · simp
    · subst h2; simp
    · simp only [List.mem_cons, ih, or_left_comm]

lemma increasing_insert {xs : List String} (h : Increasing xs) (s : String) :
    Increasing (insert xs s) := by
  induction xs with
  | nil => exact List.pairwise_singleton _ s
  | cons x xs ih =>
    obtain ⟨hx, hxs⟩ := List.pairwise_cons.mp h
    unfold insert
    split_ifs with h1 h2
    · refine List.pairwise_cons.mpr ⟨fun t ht => ?_, h⟩
      rcases List.mem_cons.mp ht with rfl | ht
      · exact h1
      · exact String.lt_trans h1 (hx t ht)
    · exact h
    · refine List.pairwise_cons.mpr ⟨fun t ht => ?_, ih hxs⟩
      rcases mem_insert.mp ht with rfl | ht
      · exact lt_of_le_of_ne (not_lt.mp h1) (Ne.symm h2)
      · exact hx t ht

end sortedSet

lemma foldl_insert_spec (xs : List String) {acc : List String} (h : Increasing acc) :
    Increasing (xs.foldl sortedSet.insert acc) ∧
      ∀ t, t ∈ xs.foldl sortedSet.insert acc ↔ t ∈ acc ∨ t ∈ xs := by
  induction xs generalizing acc with
  | nil => exact ⟨h, by simp⟩
  | cons x xs ih =>
    obtain ⟨h1, h2⟩ := ih (sortedSet.increasing_insert h x)
    refine ⟨h1, fun t => ?_⟩
    rw [List.foldl_cons, h2 t, sortedSet.mem_insert, List.mem_cons]
    tauto

lemma increasing_sortedSet (xs : List String) : Increasing (sortedSet xs) :=
  (foldl_insert_spec xs List.Pairwise.nil).1

@[simp] lemma mem_sortedSet {xs : List String} {t : String} : t ∈ sortedSet xs ↔ t ∈ xs := by
  have h := (foldl_insert_spec xs List.Pairwise.nil).2 t
  simpa [sortedSet] using h

lemma Increasing.eq_of_mem_iff {xs ys : List String} (hx : Increasing xs) (hy : Increasing ys)
    (h : ∀ t, t ∈ xs ↔ t ∈ ys) : xs = ys :=
  List.Pairwise.eq_of_mem_iff hx hy fun {t} => h t

lemma Increasing.sortedSet_eq {xs : List String} (h : Increasing xs) : sortedSet xs = xs :=
  (increasing_sortedSet xs).eq_of_mem_iff h fun _ => mem_sortedSet

@[simp] lemma sortedSet_eq_nil {xs : List String} : sortedSet xs = [] ↔ xs = [] := by
  simp only [List.eq_nil_iff_forall_not_mem, mem_sortedSet]

end Tariff
