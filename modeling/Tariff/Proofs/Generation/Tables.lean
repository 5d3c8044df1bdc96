import Mathlib.Data.List.Nodup
import Tariff.Generation.Answer
import Tariff.Proofs.Lists

/-!
Tables with indices as keys. The indices ascend, so a table is given by what it holds under each
index: it does not matter in which order it was filled, as long as no index was filled twice.
-/

namespace Tariff.Generation.Indexed

variable {α : Type} {table table' : Indexed α} {entries : List (Nat × α)} {i j : Nat} {a : α}

def Ascending (table : Indexed α) : Prop := table.Pairwise (·.1 < ·.1)

lemma mem_put {x : Nat × α} (h : x ∈ put i a table) : x = (i, a) ∨ x ∈ table := by
  induction table with
  | nil => exact .inl (List.mem_singleton.mp h)
  | cons y rest ih =>
    unfold put at h
    split_ifs at h with hlt heq
    · exact List.mem_cons.mp h
    · rcases List.mem_cons.mp h with rfl | h
      · exact .inl (by rw [heq])
      · exact .inr (List.mem_cons_of_mem _ h)
    · rcases List.mem_cons.mp h with rfl | h
      · exact .inr List.mem_cons_self
      · exact (ih h).imp_right (List.mem_cons_of_mem _)

lemma Ascending.put (h : Ascending table) (i : Nat) (a : α) :
    Ascending (Indexed.put i a table) := by
  induction table with
  | nil => exact List.pairwise_singleton _ _
  | cons y rest ih =>
    obtain ⟨hy, hrest⟩ := List.pairwise_cons.mp h
    unfold Indexed.put
    split_ifs with hlt heq
    · refine List.pairwise_cons.mpr ⟨fun x hx => ?_, h⟩
      rcases List.mem_cons.mp hx with rfl | hx
      · exact hlt
      · exact Nat.lt_trans hlt (hy x hx)
    · exact List.pairwise_cons.mpr ⟨hy, hrest⟩
    · refine List.pairwise_cons.mpr ⟨fun x hx => ?_, ih hrest⟩
      rcases mem_put hx with rfl | hx
      · exact Nat.lt_of_le_of_ne (Nat.le_of_not_lt hlt) (Ne.symm heq)
      · exact hy x hx

lemma lookup_cons (x : Nat × α) (rest : Indexed α) (j : Nat) :
    List.lookup j (x :: rest) = if j = x.1 then some x.2 else rest.lookup j := by
  split_ifs with h
  · rw [h]
    exact List.lookup_cons_self
  · rw [List.lookup_cons, beq_eq_false_iff_ne.mpr h]

lemma lookup_put (table : Indexed α) (i j : Nat) (a : α) :
    (put i a table).lookup j = if j = i then some a else table.lookup j := by
  induction table with
  | nil => exact lookup_cons (i, a) [] j
  | cons y rest ih =>
    unfold put
    by_cases hlt : i < y.1
    · rw [if_pos hlt, lookup_cons]
    · rw [if_neg hlt]
      by_cases heq : i = y.1
      · rw [if_pos heq, lookup_cons, lookup_cons, heq]
        split_ifs <;> rfl
      · rw [if_neg heq, lookup_cons, lookup_cons, ih]
        by_cases hji : j = i
        · rw [if_pos hji, if_pos hji, if_neg (hji ▸ heq)]
        · rw [if_neg hji, if_neg hji]

lemma Ascending.lookup_of_mem (h : Ascending table) (hm : (i, a) ∈ table) :
    table.lookup i = some a := by
  induction table with
  | nil => cases hm
  | cons y rest ih =>
    obtain ⟨hy, hrest⟩ := List.pairwise_cons.mp h
    rw [lookup_cons]
    rcases List.mem_cons.mp hm with rfl | hm
    · rw [if_pos rfl]
    · rw [if_neg (Nat.ne_of_gt (hy _ hm))]
      exact ih hrest hm

lemma mem_keys : i ∈ table.map (·.1) ↔ (table.lookup i).isSome = true := by
  constructor
  · intro h
    obtain ⟨x, hx, rfl⟩ := List.mem_map.mp h
    rw [← Option.ne_none_iff_isSome]
    exact fun hn => absurd (List.lookup_eq_none_iff.mp hn x hx) (by simp)
  · intro h
    obtain ⟨a, ha⟩ := Option.isSome_iff_exists.mp h
    exact List.mem_map.mpr ⟨(i, a), mem_of_lookup_eq_some ha, rfl⟩

lemma Ascending.nodup_keys (h : Ascending table) : (table.map (·.1)).Nodup :=
  List.pairwise_map.mpr (h.imp Nat.ne_of_lt)

/-- **A table is given by what is looked up in it**. -/
theorem Ascending.eq_of_lookup (h : Ascending table) (h' : Ascending table')
    (heq : ∀ i, table.lookup i = table'.lookup i) : table = table' := by
  have hsub {t t' : Indexed α} (ht : Ascending t) (he : ∀ i, t.lookup i = t'.lookup i) :
      ∀ x ∈ t, x ∈ t' := fun x hx =>
    mem_of_lookup_eq_some ((he x.1).symm.trans (ht.lookup_of_mem hx))
  have hperm : table.Perm table' :=
    (List.perm_ext_iff_of_nodup (List.Nodup.of_map _ h.nodup_keys)
      (List.Nodup.of_map _ h'.nodup_keys)).mpr
      fun x => ⟨hsub h heq x, hsub h' (fun i => (heq i).symm) x⟩
  exact hperm.eq_of_pairwise (fun x y _ _ hxy hyx => absurd hyx (Nat.lt_asymm hxy)) h h'

/-! ### Filling a table -/

def fill (table : Indexed α) (entries : List (Nat × α)) : Indexed α :=
  entries.foldl (fun t (i, a) => put i a t) table

lemma Ascending.fill (h : Ascending table) : Ascending (table.fill entries) :=
  List.foldlRecOn _ _ h fun _ ht x _ => ht.put x.1 x.2

lemma lookup_fill_of_not_mem (h : ∀ a, (i, a) ∉ entries) :
    (fill table entries).lookup i = table.lookup i := by
  induction entries generalizing table with
  | nil => rfl
  | cons x entries ih =>
    have hx : i ≠ x.1 := fun he => h x.2 (by rw [he]; exact List.mem_cons_self)
    have hput := lookup_put table x.1 i x.2
    rw [if_neg hx] at hput
    rw [← hput]
    exact ih fun a ha => h a (List.mem_cons_of_mem _ ha)

lemma lookup_fill_of_mem (hm : (i, a) ∈ entries) (h : ∀ b, (i, b) ∈ entries → b = a) :
    (fill table entries).lookup i = some a := by
  induction entries generalizing table with
  | nil => cases hm
  | cons x entries ih =>
    by_cases hlater : ∃ b, (i, b) ∈ entries
    · obtain ⟨b, hb⟩ := hlater
      rw [h b (List.mem_cons_of_mem _ hb)] at hb
      exact ih hb fun c hc => h c (List.mem_cons_of_mem _ hc)
    · obtain rfl := (List.mem_cons.mp hm).resolve_right fun ha => hlater ⟨a, ha⟩
      have hput := lookup_put table i i a
      rw [if_pos rfl] at hput
      rw [← hput]
      exact lookup_fill_of_not_mem fun b hb => hlater ⟨b, hb⟩

end Tariff.Generation.Indexed
