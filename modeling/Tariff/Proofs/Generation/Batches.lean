import Tariff.Generation.Generator
import Tariff.Proofs.Generation.Answers

/-!
The batches of a bulk pass. Each item is in one of them, and an answer brings nothing for the items
of other batches. So when the outcomes are merged, in whatever order, there is for each item what
its own batch brought, and the items without a result are those for which it brought nothing.
-/

namespace Tariff.Generation.Generator

open scoped List

variable {g : Generator} {items : List Item}

/-- The batches of a pass; their calls come first. -/
def parts (g : Generator) (items : List Item) : List (List Item) :=
  chunks g.config.batchSize items

/-- What the answer to a batch, which is call `k`, brings for an index. -/
def row? (g : Generator) (k : Nat) (part : List Item) (index : Nat) : Option Compiled :=
  (g.ask k (batchRequest part)).2.toOption.bind (firstRow? index)

def left (g : Generator) (items : List Item) : List Item :=
  ((g.parts items).mapIdx fun k part => part.filter fun i => (g.row? k part i.index).isNone).flatten

/-! ### Batches -/

lemma flatten_parts (g : Generator) (items : List Item) : (g.parts items).flatten = items :=
  flatten_chunks _ _

lemma length_part {part : List Item} (h : part ∈ g.parts items) :
    1 ≤ part.length ∧ part.length ≤ batchLimit := by
  obtain ⟨h1, h2⟩ := length_of_mem_chunks g.config.one_le_batchSize h
  exact ⟨h1, Nat.le_trans h2 g.config.batchSize_le⟩

lemma mem_items {k : Nat} {part : List Item} {i : Item} (hk : (g.parts items)[k]? = some part)
    (hi : i ∈ part) : i ∈ items := by
  rw [← flatten_parts g items]
  exact List.mem_flatten.mpr ⟨part, List.mem_of_getElem? hk, hi⟩

lemma exists_part (g : Generator) {i : Item} (h : i ∈ items) :
    ∃ (k : Nat) (part : List Item), (g.parts items)[k]? = some part ∧ i ∈ part := by
  rw [← flatten_parts g items] at h
  obtain ⟨part, hpart, hi⟩ := List.mem_flatten.mp h
  obtain ⟨k, hk⟩ := List.mem_iff_getElem?.mp hpart
  exact ⟨k, part, hk, hi⟩

lemma eq_of_index (hd : (items.map (·.index)).Nodup) {k l : Nat} {part part' : List Item}
    {i j : Item} (hk : (g.parts items)[k]? = some part) (hl : (g.parts items)[l]? = some part')
    (hi : i ∈ part) (hj : j ∈ part') (h : i.index = j.index) : k = l := by
  have hij : i = j := List.inj_on_of_nodup_map hd (mem_items hk hi) (mem_items hl hj) h
  have hnodup : (g.parts items).flatten.Nodup := by
    rw [flatten_parts]
    exact hd.of_map _
  exact eq_of_mem_of_nodup_flatten hnodup hk hl hi (hij ▸ hj)

/-- A batch within the limit is asked for in one call, and brings the first row for each of its
indices. -/
lemma lookup_batch {k : Nat} {part : List Item} (h : part ∈ g.parts items) (index : Nat) :
    (g.batch k part).2.toOption.bind (·.lookup index) =
      if index ∈ part.map (·.index) then g.row? k part index else none := by
  obtain ⟨h1, h2⟩ := length_part h
  unfold batch row?
  rw [if_neg (Nat.not_lt.mpr h2), if_neg (by rw [List.isEmpty_iff_length_eq_zero]; omega)]
  dsimp only
  cases (g.ask k (batchRequest part)).2 with
  | error f => simp [Except.bind, Except.toOption]
  | ok answer => exact lookup_readBatch _ answer index

lemma ascending_batch {k : Nat} {part : List Item} {found : Indexed Compiled}
    (h : (g.batch k part).2 = .ok found) : found.Ascending := by
  unfold batch at h
  by_cases hlimit : batchLimit < part.length
  · rw [if_pos hlimit] at h
    cases h
  · rw [if_neg hlimit] at h
    by_cases hempty : part.isEmpty = true
    · rw [if_pos hempty] at h
      cases h
      exact List.Pairwise.nil
    · rw [if_neg hempty] at h
      obtain ⟨answer, -, h⟩ := bind_eq_ok.mp h
      exact ascending_readBatch h

/-! ### Merging -/

/-- The results that the outcome of a batch adds. -/
def entries : Except Failure (Indexed Compiled) → List (Nat × Except Failure Compiled)
  | .ok found => found.map fun p => (p.1, .ok p.2)
  | .error _ => []

lemma foldl_mergeBatch (outcomes : List (Except Failure (Indexed Compiled))) (results : Results) :
    outcomes.foldl mergeBatch results = Indexed.fill results (outcomes.flatMap entries) := by
  have hone (results : Results) (outcome : Except Failure (Indexed Compiled)) :
      mergeBatch results outcome = Indexed.fill results (entries outcome) := by
    cases outcome with
    | error f => rfl
    | ok found =>
      unfold Indexed.fill entries
      rw [List.foldl_map]
      rfl
  induction outcomes generalizing results with
  | nil => rfl
  | cons outcome outcomes ih =>
    rw [List.foldl_cons, ih, hone, List.flatMap_cons]
    exact List.foldl_append.symm

lemma mem_entries {outcome : Except Failure (Indexed Compiled)}
    (h : ∀ found, outcome = .ok found → found.Ascending) {index : Nat}
    {r : Except Failure Compiled} : (index, r) ∈ entries outcome ↔
      ∃ c, outcome.toOption.bind (·.lookup index) = some c ∧ r = .ok c := by
  cases outcome with
  | error f => simp [entries, Except.toOption]
  | ok found =>
    simp only [entries, List.mem_map, Prod.mk.injEq]
    constructor
    · rintro ⟨⟨i, c⟩, hm, rfl, rfl⟩
      exact ⟨c, (h found rfl).lookup_of_mem hm, rfl⟩
    · rintro ⟨c, hl, rfl⟩
      exact ⟨(index, c), mem_of_lookup_eq_some hl, rfl, rfl⟩

section

variable {found : List (Except Failure (Indexed Compiled))}
  (hfound : found ~ (g.parts items).mapIdx fun k part => (g.batch k part).2)

include hfound

lemma mem_flatMap_entries {index : Nat} {r : Except Failure Compiled} :
    (index, r) ∈ found.flatMap entries ↔
      ∃ k part i c, (g.parts items)[k]? = some part ∧ i ∈ part ∧ i.index = index ∧
        g.row? k part index = some c ∧ r = .ok c := by
  rw [List.mem_flatMap]
  have hmem {k : Nat} {part : List Item} (hk : (g.parts items)[k]? = some part) :
      (index, r) ∈ entries (g.batch k part).2 ↔
        ∃ c, (if index ∈ part.map (·.index) then g.row? k part index else none) = some c ∧
          r = .ok c := by
    rw [mem_entries fun _ h => ascending_batch h, lookup_batch (List.mem_of_getElem? hk)]
  constructor
  · rintro ⟨outcome, ho, hr⟩
    obtain ⟨k, hk, rfl⟩ := List.mem_mapIdx.mp (hfound.mem_iff.mp ho)
    have hk' := List.getElem?_eq_getElem hk
    obtain ⟨c, hc, rfl⟩ := (hmem hk').mp hr
    split_ifs at hc with hindex
    obtain ⟨i, hi, hindex⟩ := List.mem_map.mp hindex
    exact ⟨k, _, i, c, hk', hi, hindex, hc, rfl⟩
  · rintro ⟨k, part, i, c, hk, hi, rfl, hc, rfl⟩
    obtain ⟨hlt, rfl⟩ := List.getElem?_eq_some_iff.mp hk
    refine ⟨_, hfound.mem_iff.mpr (List.mem_mapIdx.mpr ⟨k, hlt, rfl⟩), (hmem hk).mpr ⟨c, ?_, rfl⟩⟩
    rw [if_pos (List.mem_map.mpr ⟨i, hi, rfl⟩)]
    exact hc

/-- Once the batches are merged there is for each item what its own batch brought. -/
lemma lookup_found (hd : (items.map (·.index)).Nodup) {k : Nat} {part : List Item} {i : Item}
    (hk : (g.parts items)[k]? = some part) (hi : i ∈ part) :
    (found.foldl mergeBatch []).lookup i.index = (g.row? k part i.index).map .ok := by
  rw [foldl_mergeBatch]
  have hown {r : Except Failure Compiled} (hr : (i.index, r) ∈ found.flatMap entries) :
      ∃ c, g.row? k part i.index = some c ∧ r = .ok c := by
    obtain ⟨l, part', j, c, hl, hj, hindex, hc, rfl⟩ := (mem_flatMap_entries hfound).mp hr
    obtain rfl := eq_of_index hd hk hl hi hj hindex.symm
    obtain rfl := Option.some.inj (hk.symm.trans hl)
    exact ⟨c, hc, rfl⟩
  cases hrow : g.row? k part i.index with
  | none =>
    refine Indexed.lookup_fill_of_not_mem fun r hr => ?_
    obtain ⟨c, hc, -⟩ := hown hr
    rw [hrow] at hc
    cases hc
  | some c =>
    refine Indexed.lookup_fill_of_mem
      ((mem_flatMap_entries hfound).mpr ⟨k, part, i, c, hk, hi, rfl, hrow, rfl⟩) fun r hr => ?_
    obtain ⟨c', hc, rfl⟩ := hown hr
    rw [hrow] at hc
    rw [Option.some.inj hc]

/-- Nothing else is there. -/
lemma lookup_found_of_not_mem {index : Nat} (h : index ∉ items.map (·.index)) :
    (found.foldl mergeBatch []).lookup index = none := by
  rw [foldl_mergeBatch]
  refine Indexed.lookup_fill_of_not_mem fun r hr => ?_
  obtain ⟨k, part, i, c, hk, hi, hindex, -, -⟩ := (mem_flatMap_entries hfound).mp hr
  exact h (List.mem_map.mpr ⟨i, mem_items hk hi, hindex⟩)

/-- The items that are asked for again are those for which their own batches bring nothing. -/
lemma missing_found (hd : (items.map (·.index)).Nodup) :
    missing items (found.foldl mergeBatch []) = g.left items := by
  unfold missing left
  conv_lhs => rw [← flatten_parts g items]
  rw [List.filter_flatten]
  congr 1
  refine List.ext_getElem? fun k => ?_
  rw [List.getElem?_map, List.getElem?_mapIdx]
  cases hk : (g.parts items)[k]? with
  | none => rfl
  | some part =>
    refine congrArg some (List.filter_congr fun i hi => ?_)
    rw [lookup_found hfound hd hk hi, Option.isNone_map]

end

/-! ### What is left over -/

lemma left_sublist (g : Generator) (hd : (items.map (·.index)).Nodup) :
    (g.left items).Sublist items := by
  rw [← missing_found (.refl _) hd]
  exact List.filter_sublist

lemma mem_left (hd : (items.map (·.index)).Nodup) {k : Nat} {part : List Item} {i : Item}
    (hk : (g.parts items)[k]? = some part) (hi : i ∈ part) :
    i ∈ g.left items ↔ g.row? k part i.index = none := by
  rw [← missing_found (.refl _) hd, missing, List.mem_filter, lookup_found (.refl _) hd hk hi,
    Option.isNone_map, Option.isNone_iff_eq_none, and_iff_right (mem_items hk hi)]

end Tariff.Generation.Generator
