import Tariff.Proofs.Generation.Batches
import Tariff.Proofs.Generation.InFlight

/-!
Bulk passes. An item gets its result from its batch; if that brings nothing for it, it is asked for
again by itself and gets what comes of that. The order in which calls end plays no part, and every
formula among the results was read off an answer to one of the calls.
-/

namespace Tariff.Generation.Generator

open scoped List

variable {g : Generator} {items : List Item} {bulk : Bulk}

/-- What a pass may bring when its calls end in any order: `found` has the outcomes of the batches
and `singles` those of the single requests as they come. -/
inductive Brings (g : Generator) (items : List Item) : Bulk → Prop where
  | intro {found : List (Except Failure (Indexed Compiled))}
      {singles : List (Nat × Except Failure Compiled)}
      (batches : found ~ (g.parts items).mapIdx fun k part => (g.batch k part).2)
      (again : singles ~ (missing items (found.foldl mergeBatch [])).mapIdx fun m i =>
        (i.index, (g.single ((g.parts items).length + m) i.text i.hint).2)) :
      Brings g items
        { calls := (g.parts items).map batchRequest ++
            (missing items (found.foldl mergeBatch [])).map fun i => singleRequest i.text i.hint
          results := mergeSingles (found.foldl mergeBatch []) singles }

/-- Each call ends once, in an order that may depend on how long the calls take. -/
theorem brings_allEnding (g : Generator) {ending : Ending}
    (h : ∀ {α : Type} (calls : List (Nat × α)), ending calls ~ calls.map (·.2))
    (items : List Item) : Brings g items (g.allEnding ending items) := by
  refine .intro ((h _).trans ?_) ((h _).trans ?_)
  · rw [map_mapIdx]
    rfl
  · rw [map_mapIdx]
    rfl

theorem brings_all (g : Generator) (items : List Item) : Brings g items (g.all items) :=
  g.brings_allEnding (fun calls => inFlight_perm _ calls) items

/-! ### Single requests -/

section

variable {singles : List (Nat × Except Failure Compiled)}
  (hsingles : singles ~ (g.left items).mapIdx fun m i =>
    (i.index, (g.single ((g.parts items).length + m) i.text i.hint).2))

include hsingles

lemma mem_singles {index : Nat} {r : Except Failure Compiled} :
    (index, r) ∈ singles ↔ ∃ (m : Nat) (i : Item), (g.left items)[m]? = some i ∧
      i.index = index ∧ r = (g.single ((g.parts items).length + m) i.text i.hint).2 := by
  rw [hsingles.mem_iff, List.mem_mapIdx]
  constructor
  · rintro ⟨m, hm, heq⟩
    rw [Prod.mk.injEq] at heq
    exact ⟨m, _, List.getElem?_eq_getElem hm, heq.1, heq.2.symm⟩
  · rintro ⟨m, i, hm, rfl, rfl⟩
    obtain ⟨hlt, rfl⟩ := List.getElem?_eq_some_iff.mp hm
    exact ⟨m, hlt, rfl⟩

lemma lookup_singles (hd : (items.map (·.index)).Nodup) {m : Nat} {i : Item}
    (hm : (g.left items)[m]? = some i) (results : Results) :
    (mergeSingles results singles).lookup i.index =
      some (g.single ((g.parts items).length + m) i.text i.hint).2 := by
  refine Indexed.lookup_fill_of_mem ((mem_singles hsingles).mpr ⟨m, i, hm, rfl, rfl⟩) fun r hr => ?_
  obtain ⟨m', i', hm', hindex, rfl⟩ := (mem_singles hsingles).mp hr
  have hsub := g.left_sublist hd
  have hii : i' = i := List.inj_on_of_nodup_map hd (hsub.mem (List.mem_of_getElem? hm'))
    (hsub.mem (List.mem_of_getElem? hm)) hindex
  obtain rfl : m' = m := (List.getElem?_inj (List.getElem?_eq_some_iff.mp hm').1
    ((hd.of_map _).sublist hsub)).mp (hm'.trans (by rw [hm, hii]))
  rw [hii]

lemma lookup_singles_of_not_mem {index : Nat} (h : index ∉ (g.left items).map (·.index))
    (results : Results) : (mergeSingles results singles).lookup index = results.lookup index := by
  refine Indexed.lookup_fill_of_not_mem fun r hr => ?_
  obtain ⟨m, i, hm, hindex, -⟩ := (mem_singles hsingles).mp hr
  exact h (List.mem_map.mpr ⟨i, List.mem_of_getElem? hm, hindex⟩)

end

lemma single_ne_tooLarge (g : Generator) (call : Nat) (text : String) (hint : Option String)
    (size limit : Nat) : (g.single call text hint).2 ≠ .error (.batchTooLarge size limit) := by
  have hsingle : (g.single call text hint).2 =
      (g.ask call (singleRequest text hint)).2 >>= readSingle := rfl
  rw [hsingle]
  intro h
  rcases bind_eq_error.mp h with h | ⟨answer, -, h⟩
  · unfold ask at h
    dsimp only at h
    split at h
    · cases h
    · dsimp only at h
      split at h
      · split at h <;> cases h
      · cases h
  · cases refusal_of_readSingle h

/-! ### Results -/

section

variable (h : Brings g items bulk) (hd : (items.map (·.index)).Nodup)

include h

lemma Brings.ascending : Indexed.Ascending bulk.results := by
  obtain ⟨batches, again⟩ := h
  refine Indexed.Ascending.fill ?_
  rw [foldl_mergeBatch]
  exact Indexed.Ascending.fill List.Pairwise.nil

include hd

lemma Brings.calls_eq : bulk.calls = (g.parts items).map batchRequest ++
    (g.left items).map fun i => singleRequest i.text i.hint := by
  obtain ⟨batches, again⟩ := h
  rw [missing_found batches hd]

lemma Brings.lookup_of_row {k : Nat} {part : List Item} {i : Item} {c : Compiled}
    (hk : (g.parts items)[k]? = some part) (hi : i ∈ part) (hc : g.row? k part i.index = some c) :
    bulk.results.lookup i.index = some (.ok c) := by
  obtain ⟨batches, again⟩ := h
  rw [missing_found batches hd] at again
  rw [← Option.map_some, ← hc, ← lookup_found batches hd hk hi]
  refine lookup_singles_of_not_mem again (fun hl => ?_) _
  obtain ⟨j, hj, hindex⟩ := List.mem_map.mp hl
  obtain rfl := List.inj_on_of_nodup_map hd ((g.left_sublist hd).mem hj) (mem_items hk hi) hindex
  rw [mem_left hd hk hi, hc] at hj
  cases hj

lemma Brings.lookup_of_left {m : Nat} {i : Item} (hm : (g.left items)[m]? = some i) :
    bulk.results.lookup i.index =
      some (g.single ((g.parts items).length + m) i.text i.hint).2 := by
  obtain ⟨batches, again⟩ := h
  rw [missing_found batches hd] at again
  exact lookup_singles again hd hm _

lemma Brings.lookup_of_not_mem {index : Nat} (hindex : index ∉ items.map (·.index)) :
    bulk.results.lookup index = none := by
  obtain ⟨batches, again⟩ := h
  rw [missing_found batches hd] at again
  refine (lookup_singles_of_not_mem again (fun hl => hindex ?_) _).trans
    (lookup_found_of_not_mem batches hindex)
  exact ((g.left_sublist hd).map _).mem hl

/-- A result is that of an item: what its batch brings for it, or what its own request does. -/
lemma Brings.of_lookup {index : Nat} {r : Except Failure Compiled}
    (hr : bulk.results.lookup index = some r) :
    ∃ i ∈ items, i.index = index ∧
      ((∃ (k : Nat) (part : List Item) (c : Compiled), (g.parts items)[k]? = some part ∧ i ∈ part ∧
          g.row? k part i.index = some c ∧ r = .ok c) ∨
        ∃ m : Nat, (g.left items)[m]? = some i ∧
          r = (g.single ((g.parts items).length + m) i.text i.hint).2) := by
  by_cases hindex : index ∈ items.map (·.index)
  · obtain ⟨i, hi, rfl⟩ := List.mem_map.mp hindex
    refine ⟨i, hi, rfl, ?_⟩
    obtain ⟨k, part, hk, hip⟩ := g.exists_part hi
    cases hc : g.row? k part i.index with
    | some c =>
      rw [h.lookup_of_row hd hk hip hc] at hr
      exact .inl ⟨k, part, c, hk, hip, hc, (Option.some.inj hr).symm⟩
    | none =>
      obtain ⟨m, hm⟩ := List.mem_iff_getElem?.mp ((mem_left hd hk hip).mpr hc)
      rw [h.lookup_of_left hd hm] at hr
      exact .inr ⟨m, hm, (Option.some.inj hr).symm⟩
  · rw [h.lookup_of_not_mem hd hindex] at hr
    cases hr

lemma Brings.isSome_lookup {i : Item} (hi : i ∈ items) :
    (bulk.results.lookup i.index).isSome = true := by
  obtain ⟨k, part, hk, hip⟩ := g.exists_part hi
  cases hc : g.row? k part i.index with
  | some c => exact Option.isSome_of_eq_some (h.lookup_of_row hd hk hip hc)
  | none =>
    obtain ⟨m, hm⟩ := List.mem_iff_getElem?.mp ((mem_left hd hk hip).mpr hc)
    exact Option.isSome_of_eq_some (h.lookup_of_left hd hm)

end

def Gives (g : Generator) (calls : List Request) (j : Json) : Prop :=
  ∃ (k : Nat) (r : Request) (answer : String),
    calls[k]? = some r ∧ (g.ask k r).2 = .ok answer ∧ Holds answer j

/-- What a single request brings was read off its answer. -/
lemma gives_of_single {calls : List Request} {k : Nat} {text : String} {hint : Option String}
    {c : Compiled} (hk : calls[k]? = some (singleRequest text hint))
    (hc : (g.single k text hint).2 = .ok c) : ∃ j, g.Gives calls j ∧ readFields j = .ok c := by
  obtain ⟨answer, ha, hc⟩ := bind_eq_ok.mp hc
  obtain ⟨j, hj, hread⟩ := (Accepts.single hc).exists_fields
  exact ⟨j, ⟨k, _, answer, hk, ha, hj⟩, hread⟩

/-- **What a pass brings was read off answers** to the calls that it made. -/
theorem Brings.gives (h : Brings g items bulk) (hd : (items.map (·.index)).Nodup) {index : Nat}
    {c : Compiled} (hc : bulk.results.lookup index = some (.ok c)) :
    ∃ j, g.Gives bulk.calls j ∧ readFields j = .ok c := by
  rw [h.calls_eq hd]
  obtain ⟨i, -, -, ⟨k, part, c', hk, -, hrow, hr⟩ | ⟨m, hm, hr⟩⟩ := h.of_lookup hd hc
  · cases hr
    obtain ⟨answer, ha, hrow⟩ := Option.bind_eq_some_iff.mp hrow
    obtain ⟨rows, row, hrows, hmem, hread⟩ := firstRow?_eq_some hrow
    refine ⟨row, ⟨k, batchRequest part, answer, ?_, toOption_eq_some ha, .row hrows hmem⟩,
      readFields_of_readRow hread⟩
    rw [List.getElem?_append_left, List.getElem?_map, hk]
    · rfl
    · rw [List.length_map]
      exact (List.getElem?_eq_some_iff.mp hk).1
  · refine gives_of_single ?_ hr.symm
    rw [List.getElem?_append_right, List.length_map, Nat.add_sub_cancel_left, List.getElem?_map, hm]
    · rfl
    · rw [List.length_map]
      exact Nat.le_add_right _ _

end Tariff.Generation.Generator
