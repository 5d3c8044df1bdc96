import Tariff.Proofs.Generation.Bulk

/-!
What a bulk pass settles: each item gets one result, from its own batch or from its own request, and
neither the results nor the requests show in which order the calls ended.
-/

namespace Tariff.Generation.Generator

open scoped List

variable {g : Generator} {items : List Item} {bulk : Bulk}

/-- How a pass treats its items. Each is sent in one batch within the limit. If the answer to that
batch has a row for it, the first such row is its result and it is not sent again; if not, it is
sent once more by itself, and what comes of that is its result. -/
structure Resolved (g : Generator) (items : List Item) (bulk : Bulk) : Prop where
  calls : bulk.calls = (g.parts items).map batchRequest ++
    (g.left items).map fun i => singleRequest i.text i.hint
  within : ∀ part ∈ g.parts items, part.length ≤ batchLimit
  once : ∀ i ∈ items, (g.parts items).flatten.count i = 1
  only : ∀ i ∈ (g.parts items).flatten, i ∈ items
  keys : bulk.results.map (·.1) ~ items.map (·.index)
  of_row : ∀ (k : Nat) part, (g.parts items)[k]? = some part → ∀ i ∈ part, ∀ c,
    g.row? k part i.index = some c →
      (g.left items).count i = 0 ∧ bulk.results.lookup i.index = some (.ok c)
  of_no_row : ∀ (k : Nat) part, (g.parts items)[k]? = some part → ∀ i ∈ part,
    g.row? k part i.index = none →
      (g.left items).count i = 1 ∧ ∃ m : Nat, (g.left items)[m]? = some i ∧
        bulk.results.lookup i.index =
          some (g.single ((g.parts items).length + m) i.text i.hint).2
  no_limit : ∀ index size limit, (index, .error (.batchTooLarge size limit)) ∉ bulk.results

/-- **Each item is resolved once**, in whatever order the calls end. -/
theorem Brings.resolved (h : Brings g items bulk) (hd : (items.map (·.index)).Nodup) :
    Resolved g items bulk where
  calls := h.calls_eq hd
  within part hpart := (length_part hpart).2
  once i hi := by
    rw [flatten_parts]
    exact List.count_eq_one_of_mem (hd.of_map _) hi
  only i hi := by rwa [flatten_parts] at hi
  keys := by
    refine (List.perm_ext_iff_of_nodup h.ascending.nodup_keys hd).mpr fun index => ?_
    rw [Indexed.mem_keys]
    constructor
    · intro hs
      obtain ⟨r, hr⟩ := Option.isSome_iff_exists.mp hs
      obtain ⟨i, hi, hindex, -⟩ := h.of_lookup hd hr
      exact List.mem_map.mpr ⟨i, hi, hindex⟩
    · intro hindex
      obtain ⟨i, hi, rfl⟩ := List.mem_map.mp hindex
      exact h.isSome_lookup hd hi
  of_row k part hk i hi c hc := by
    refine ⟨List.count_eq_zero.mpr fun hl => ?_, h.lookup_of_row hd hk hi hc⟩
    rw [mem_left hd hk hi, hc] at hl
    cases hl
  of_no_row k part hk i hi hn := by
    have hmem := (mem_left hd hk hi).mpr hn
    obtain ⟨m, hm⟩ := List.mem_iff_getElem?.mp hmem
    have hnodup := (hd.of_map _).sublist (g.left_sublist hd)
    exact ⟨List.count_eq_one_of_mem hnodup hmem, m, hm, h.lookup_of_left hd hm⟩
  no_limit index size limit hmem := by
    obtain ⟨i, -, -, ⟨k, part, c, -, -, -, hr⟩ | ⟨m, -, hr⟩⟩ :=
      h.of_lookup hd (h.ascending.lookup_of_mem hmem)
    · cases hr
    · exact g.single_ne_tooLarge _ _ _ size limit hr.symm

/-- **A pass brings one thing**, in whatever order its calls end. -/
theorem Brings.eq {bulk' : Bulk} (h : Brings g items bulk) (h' : Brings g items bulk')
    (hd : (items.map (·.index)).Nodup) : bulk = bulk' := by
  have hlookup {u v : Bulk} (hu : Brings g items u) (hv : Brings g items v) (index : Nat)
      (r : Except Failure Compiled) (hr : u.results.lookup index = some r) :
      v.results.lookup index = some r := by
    obtain ⟨i, -, rfl, ⟨k, part, c, hk, hi, hc, rfl⟩ | ⟨m, hm, rfl⟩⟩ := hu.of_lookup hd hr
    · exact hv.lookup_of_row hd hk hi hc
    · exact hv.lookup_of_left hd hm
  have hcalls : bulk.calls = bulk'.calls := (h.calls_eq hd).trans (h'.calls_eq hd).symm
  have hresults : bulk.results = bulk'.results :=
    h.ascending.eq_of_lookup h'.ascending fun index => Option.ext fun r =>
      ⟨hlookup h h' index r, hlookup h' h index r⟩
  cases bulk
  cases bulk'
  congr

/-- How many calls are under way at once does not show in what a pass may bring. -/
lemma Brings.of_concurrency {provider : Provider} {timeout batchSize concurrency : Nat}
    (h : Brings ⟨provider, .clamped timeout batchSize concurrency⟩ items bulk)
    (concurrency' : Nat) :
    Brings ⟨provider, .clamped timeout batchSize concurrency'⟩ items bulk := by
  obtain ⟨batches, again⟩ := h
  exact .intro batches again

/-! ### Main statements -/

/-- **A bulk pass resolves every item exactly once**, whatever its settings and whatever the
provider does. -/
theorem all_resolved (provider : Provider) (timeout batchSize concurrency : Nat)
    (hd : (items.map (·.index)).Nodup) :
    Resolved ⟨provider, .clamped timeout batchSize concurrency⟩ items
      (all ⟨provider, .clamped timeout batchSize concurrency⟩ items) :=
  (brings_all _ items).resolved hd

/-- A provider that mixes up batches: it answers the first with a row for index 9, and that late,
fails on the second, and finds everything else free. -/
def crossed : Provider
  | 0, _ => ⟨20, .ok ("[\x7b\"index\": 9, \"formula\": \"value\", \"variables\": [\"value\"], " ++
      "\"confidence\": 1\x7d]")⟩
  | 1, _ => ⟨5, .error (.server 503 "")⟩
  | _, _ => ⟨1, .ok "\x7b\"formula\": \"0\", \"variables\": [], \"confidence\": 1\x7d"⟩

def pair : List Item := [⟨7, "See note 3", none⟩, ⟨9, "See note 4", some "kg"⟩]

/-- The row for index 9 is not for the batch that it comes in, so both items are asked for again. -/
theorem all_resolved_crossed :
    (pair.map (·.index)).Nodup ∧
      Resolved ⟨crossed, .clamped 30 0 0⟩ pair (all ⟨crossed, .clamped 30 0 0⟩ pair) ∧
      (all ⟨crossed, .clamped 30 0 0⟩ pair).calls.length = 4 ∧
      (all ⟨crossed, .clamped 30 0 0⟩ pair).results.map
        (fun p => (p.1, p.2.toOption.map (·.formula))) = [(7, some "0"), (9, some "0")] :=
  ⟨by decide, all_resolved crossed 30 0 0 (by decide), by decide +kernel, by decide +kernel⟩

/-- **The order in which calls end does not show**: neither in the results nor in the requests. -/
theorem bulk_unordered {provider : Provider} {timeout batchSize concurrency concurrency' : Nat}
    {bulk bulk' : Bulk} (hd : (items.map (·.index)).Nodup)
    (h : Brings ⟨provider, .clamped timeout batchSize concurrency⟩ items bulk)
    (h' : Brings ⟨provider, .clamped timeout batchSize concurrency'⟩ items bulk') :
    bulk.results = bulk'.results ∧ bulk.calls ~ bulk'.calls := by
  obtain rfl := (h.of_concurrency concurrency').eq h' hd
  exact ⟨rfl, .refl _⟩

/-- With one call at a time the late answer comes first, with two it comes last. -/
theorem bulk_unordered_crossed :
    (pair.map (·.index)).Nodup ∧
      Brings ⟨crossed, .clamped 30 1 1⟩ pair (all ⟨crossed, .clamped 30 1 1⟩ pair) ∧
      Brings ⟨crossed, .clamped 30 1 2⟩ pair (all ⟨crossed, .clamped 30 1 2⟩ pair) ∧
      (all ⟨crossed, .clamped 30 1 1⟩ pair).results =
        (all ⟨crossed, .clamped 30 1 2⟩ pair).results ∧
      (all ⟨crossed, .clamped 30 1 1⟩ pair).calls ~ (all ⟨crossed, .clamped 30 1 2⟩ pair).calls :=
  ⟨by decide, brings_all _ _, brings_all _ _,
    bulk_unordered (by decide) (brings_all ⟨crossed, .clamped 30 1 1⟩ pair)
      (brings_all ⟨crossed, .clamped 30 1 2⟩ pair)⟩

end Tariff.Generation.Generator
