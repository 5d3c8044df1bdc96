import Tariff.Proofs.Compilation.Ledger

/-!
Bulk passes and single texts. Where the provider always answers a single request for a text in the
same way, and no row of a batch contradicts that answer, a pass makes of each rate text what comes
of compiling it alone: the same formula, or a failure that reads the same.
-/

namespace Tariff

namespace Generation

/-- The rows of an answer to a batch, those included that do not hold. -/
def rowsOf (answer : String) : List Json :=
  match readValue answer with
  | .ok (.array rows) => rows
  | _ => []

namespace Generator

variable {α : Type} {view : Compiled → α} {g : Generator} {items : List Item}

/-- A provider that does not contradict itself about these items: a single request for one always
gets the same answer, or fails alike, and a row that holds, for an item of its batch, bears the
formula of the item's single answer. Batches may fail, and rows may be missing or not hold. Formulas
count as the same if `view` shows the same of them, such as their texts, or all that they are. -/
structure Coherent (view : Compiled → α) (g : Generator) (items : List Item) : Prop where
  steady : ∀ k l, ∀ i ∈ items,
    (g.ask k (singleRequest i.text i.hint)).2 = (g.ask l (singleRequest i.text i.hint)).2
  rows : ∀ k part answer, (g.parts items)[k]? = some part →
    (g.ask k (batchRequest part)).2 = .ok answer →
    ∀ row ∈ rowsOf answer, ∀ i ∈ part, ∀ f, readRow row = .ok (i.index, f) →
      ∃ f', (g.single 0 i.text i.hint).2 = .ok f' ∧ view f = view f'

lemma Coherent.single_eq (h : g.Coherent view items) (k l : Nat) {i : Item} (hi : i ∈ items) :
    (g.single k i.text i.hint).2 = (g.single l i.text i.hint).2 :=
  congrArg (·.bind readSingle) (h.steady k l i hi)

/-- In a bulk pass over its items a coherent provider brings what it brings for each by itself. -/
lemma Coherent.lookup (h : g.Coherent view items) (hd : (items.map (·.index)).Nodup) {i : Item}
    (hi : i ∈ items) : ∃ r, (g.all items).results.lookup i.index = some r ∧
      r.map view = (g.single 0 i.text i.hint).2.map view := by
  have hb := g.brings_all items
  obtain ⟨k, part, hk, hip⟩ := g.exists_part hi
  cases hrow : g.row? k part i.index with
  | some f =>
    refine ⟨_, hb.lookup_of_row hd hk hip hrow, ?_⟩
    obtain ⟨answer, ha, hf⟩ := Option.bind_eq_some_iff.mp hrow
    obtain ⟨rows, row, hrows, hmem, hread⟩ := firstRow?_eq_some hf
    have hmem' : row ∈ rowsOf answer := by
      unfold rowsOf
      rwa [hrows]
    obtain ⟨f', hf', hview⟩ :=
      h.rows k part answer hk (toOption_eq_some ha) row hmem' i hip f hread
    rw [hf']
    exact congrArg Except.ok hview
  | none =>
    obtain ⟨m, hm⟩ := List.mem_iff_getElem?.mp ((mem_left hd hk hip).mpr hrow)
    exact ⟨_, hb.lookup_of_left hd hm, by rw [h.single_eq _ 0 hi]⟩

end Generator

end Generation

namespace Compilation

open Tariff.Generation

variable {α : Type} {view : Compiled → α} {c : Compiler} {now : Option Instant} {es : List Entry}

/-- A text that the grammar does not know is compiled by itself as its key is asked for. -/
lemma compile_of_key {text : String} {unit : Option String} {k : Key}
    (h : key? text unit = some k) : ∃ calls, c.compile text unit = .ok (calls,
      match c.generator with
      | some g => (g.single 0 k.1 k.2).2
      | none => .error .noProvider) := by
  unfold key? at h
  unfold Compiler.compile
  split at h
  next hr =>
    rw [hr]
    cases h
    cases c.generator <;> exact ⟨_, rfl⟩
  next => cases h

/-- A text that does not stop the program is compiled by itself, and a pass makes of it what comes
of that. -/
lemma exists_compile (hc : ∀ g, c.generator = some g → g.Coherent view (itemsFor es))
    {s : Nat × Column} {e : Entry} {text : String} (he : es[s.1]? = some e)
    (ht : (e.rate s.2).text = some text) (hf : ∀ f, Rate.compile text e.unit ≠ .stopped f) :
    ∃ calls r, c.compile text e.unit = .ok (calls, r) ∧
      (c.verdict es text e.unit).map view = r.map view := by
  cases hk : key? text e.unit with
  | none =>
    unfold key? at hk
    unfold Compiler.verdict Compiler.compile
    cases hr : Rate.compile text e.unit with
    | compiled f => exact ⟨_, _, rfl, rfl⟩
    | unresolved normal =>
      rw [hr] at hk
      cases hk
    | stopped f => exact absurd hr (hf f)
  | some k =>
    obtain ⟨calls, hcompile⟩ := compile_of_key (c := c) hk
    refine ⟨calls, _, hcompile, ?_⟩
    rw [verdict_of_key hk]
    cases hg : c.generator with
    | none =>
      unfold Compiler.brought
      rw [hg]
    | some g =>
      have hmem : k ∈ keysOf (unresolved (cells es)) := by
        refine mem_keys.mpr ⟨s, ?_⟩
        rw [keyAt?_eq he, ht]
        exact hk
      obtain ⟨r, hl, hview⟩ := (hc g hg).lookup (nodup_itemsOf _)
        (mem_itemsFor.mpr ⟨_, hmem, rfl⟩)
      rw [lookup_itemFor hg hk hmem, verdict_of_key hk] at hl
      cases hl
      exact hview

lemma exists_compile_ok_iff {text : String} {unit : Option String} :
    (∃ p, c.compile text unit = .ok p) ↔ ∀ f, Rate.compile text unit ≠ .stopped f := by
  unfold Compiler.compile
  cases Rate.compile text unit with
  | compiled f => simp
  | unresolved normal => cases c.generator <;> simp
  | stopped f => simp

lemma mem_cells {x : Cell} : x ∈ cells es ↔ ∃ (i : Nat) (e : Entry) (col : Column) (text : String),
    es[i]? = some e ∧ (e.rate col).text = some text ∧ ⟨e.code, col, text, e.unit⟩ = x := by
  unfold cells cellsOf
  simp only [List.mem_flatMap, List.mem_filterMap, Option.map_eq_some_iff]
  constructor
  · rintro ⟨e, he, col, -, text, ht, rfl⟩
    obtain ⟨i, hi⟩ := List.mem_iff_getElem?.mp he
    exact ⟨i, e, col, text, hi, ht, rfl⟩
  · rintro ⟨i, e, col, text, hi, ht, rfl⟩
    exact ⟨e, List.mem_of_getElem? hi, col, by cases col <;> decide, text, ht, rfl⟩

lemma exists_pass_ok_iff : (∃ p, c.pass now es = .ok p) ↔
    ∀ (i : Nat) (e : Entry) (col : Column) (text : String), es[i]? = some e →
      (e.rate col).text = some text → ∃ p, c.compile text e.unit = .ok p := by
  have hpass : (∃ p, c.pass now es = .ok p) ↔ Writable es := by
    simp only [pass_eq_ok_iff, exists_and_left, exists_eq, and_true]
  rw [hpass]
  unfold Writable
  simp only [fault?_eq_none_iff, exists_compile_ok_iff, mem_cells]
  constructor
  · exact fun h i e col text hi ht => h _ ⟨i, e, col, text, hi, ht, rfl⟩
  · rintro h _ ⟨i, e, col, text, hi, ht, rfl⟩
    exact h i e col text hi ht

/-- **A bulk pass agrees with compiling one text at a time.** It comes to its end exactly if each
text does by itself. Then it accounts for every rate column, and for one with a text it reports an
update with a formula, or a failure with a message, exactly if that formula or a failure with that
message comes of compiling the text alone. -/
theorem pass_agrees (view : Compiled → α) (c : Compiler) (now : Option Instant) (es : List Entry)
    (hc : ∀ g, c.generator = some g → g.Coherent view (itemsFor es)) :
    ((∃ p, c.pass now es = .ok p) ↔
      ∀ (i : Nat) (e : Entry) (col : Column) (text : String), es[i]? = some e →
        (e.rate col).text = some text → ∃ p, c.compile text e.unit = .ok p) ∧
    ∀ calls r, c.pass now es = .ok (calls, r) → ∃ fate, Accounts es r fate ∧
      ∀ (i : Nat) (e : Entry) (col : Column) (text : String), es[i]? = some e →
        (e.rate col).text = some text →
        (∀ x, (∃ u, fate (i, col) = .update u ∧ view u.compiled = x) ↔
          ∃ calls f, c.compile text e.unit = .ok (calls, .ok f) ∧ view f = x) ∧
        ∀ complaint m,
          (∃ f, fate (i, col) = .failure f ∧ f.failure.message complaint = m) ↔
            ∃ calls f, c.compile text e.unit = .ok (calls, .error f) ∧ f.message complaint = m := by
  refine ⟨exists_pass_ok_iff, fun calls r hpass => ?_⟩
  obtain ⟨hw, hpass⟩ := pass_eq_ok_iff.mp hpass
  obtain ⟨rfl, rfl⟩ := Prod.mk.inj hpass
  refine ⟨c.fate now es, accounts_answer c now hw, fun i e col text he ht => ?_⟩
  obtain ⟨calls, r, hcompile, heq⟩ := exists_compile hc (s := (i, col)) he ht
    (fault?_eq_none_iff.mp (hw _ (mem_cells.mpr ⟨i, e, col, text, he, ht, rfl⟩)))
  rw [fate_eq he, Compiler.fateOf, ht, hcompile]
  cases hv : c.verdict es text e.unit with
  | ok f =>
    rw [hv] at heq
    obtain ⟨f', rfl, hview⟩ := map_eq_ok.mp heq.symm
    simp [hv, hview]
  | error x =>
    rw [hv] at heq
    obtain rfl := map_eq_error.mp heq.symm
    simp [hv]

/-- A row for index 0, and one for index 1 that does not hold. -/
def oneRow : String :=
  "[\x7b\"index\": 0, \"formula\": \"0\", \"variables\": [], \"confidence\": 1\x7d, " ++
    "\x7b\"index\": 1\x7d]"

/-- A provider that finds a formula for one text and fails on any other, as on the second text of
a batch. -/
def retried : Provider := fun _ r =>
  if r.tool = "compile_rates" then ⟨1, .ok oneRow⟩
  else if r.prompt = singlePrompt "see note 3" none then
    ⟨1, .ok "\x7b\"formula\": \"0\", \"variables\": [], \"confidence\": 1\x7d"⟩
  else ⟨1, .error (.exchange "refused")⟩

def retriedCompiler : Compiler := ⟨some ⟨retried, .default⟩⟩

def noted : List Entry :=
  [{ code := "0101", general.text := some "See note 3" },
    { code := "0102", other.text := some "See note 4" }]

lemma ask_retried (k : Nat) (part : List Item) :
    (Generator.ask ⟨retried, .default⟩ k (batchRequest part)).2 = .ok oneRow := by
  have hreply : retried k (batchRequest part) = ⟨1, .ok oneRow⟩ := if_pos rfl
  have hblank : ¬oneRow.toList.all Text.isBlank = true := by decide +kernel
  unfold Generator.ask
  dsimp only
  rw [hreply, if_neg (by decide)]
  dsimp only
  rw [if_neg hblank]

lemma single_retried : ∃ f, (Generator.single ⟨retried, .default⟩ 0 "see note 3" none).2 = .ok f ∧
    f.formula = "0" := by
  have hsingle : (Generator.single ⟨retried, .default⟩ 0 "see note 3" none).2.toOption.map
      (·.formula) = some "0" := by
    decide +kernel
  obtain ⟨f, hf, hformula⟩ := Option.map_eq_some_iff.mp hsingle
  exact ⟨f, toOption_eq_some hf, hformula⟩

lemma single_retried_error : (Generator.single ⟨retried, .default⟩ 0 "see note 4" none).2 =
    .error (.provider (.exchange "refused")) := by
  have hreply : retried 0 (singleRequest "see note 4" none) = ⟨1, .error (.exchange "refused")⟩ := by
    unfold retried
    rw [if_neg (by decide), if_neg (by decide +kernel)]
  unfold Generator.single Generator.ask
  dsimp only
  rw [hreply, if_neg (by decide)]
  rfl

lemma coherent_retried : Generator.Coherent (·.formula) ⟨retried, .default⟩ (itemsFor noted) where
  steady _ _ _ _ := rfl
  rows k part answer hk ha row hrow i hi f hread := by
    obtain rfl : oneRow = answer := Except.ok.inj ((ask_retried k part).symm.trans ha)
    have hholding : ((rowsOf oneRow).filterMap fun row =>
        (readRow row).toOption.map fun p => (p.1, p.2.formula)) = [(0, "0")] := by
      decide +kernel
    obtain ⟨hindex, hf⟩ : i.index = 0 ∧ f.formula = "0" := by
      refine Prod.mk.inj (List.mem_singleton.mp (hholding ▸ List.mem_filterMap.mpr ⟨row, hrow, ?_⟩))
      rw [hread]
      rfl
    have hitem : i = ⟨0, "see note 3", none⟩ := by
      have hitems : itemsFor noted = [⟨0, "see note 3", none⟩, ⟨1, "see note 4", none⟩] := by
        decide +kernel
      rcases List.mem_pair.mp (hitems ▸ Generator.mem_items hk hi) with rfl | rfl
      · rfl
      · cases hindex
    obtain ⟨f', hf', hformula⟩ := single_retried
    rw [hitem]
    exact ⟨f', hf', hf.trans hformula.symm⟩

/-- The second text is asked for again, and fails as it does by itself. -/
theorem pass_agrees_retried :
    (∀ g, retriedCompiler.generator = some g → g.Coherent (·.formula) (itemsFor noted)) ∧
    ∃ calls r, retriedCompiler.pass none noted = .ok (calls, r) ∧ calls.length = 2 ∧
      ∃ fate, Accounts noted r fate ∧
        (∃ u, fate (0, .general) = .update u ∧ u.compiled.formula = "0") ∧
        ∃ f, fate (1, .other) = .failure f ∧ f.failure.message (fun _ => "") =
          "formula generation failed: HTTP request failed: refused" := by
  have hc : ∀ g, retriedCompiler.generator = some g → g.Coherent (·.formula) (itemsFor noted) := by
    rintro g ⟨⟩
    exact coherent_retried
  have h3 : key? "See note 3" none = some ("see note 3", none) := by decide +kernel
  have h4 : key? "See note 4" none = some ("see note 4", none) := by decide +kernel
  have hcalls : (retriedCompiler.pass none noted).toOption.map (·.1.length) = some 2 := by
    decide +kernel
  obtain ⟨⟨calls, r⟩, hp, htwo⟩ := Option.map_eq_some_iff.mp hcalls
  have hpass := toOption_eq_some hp
  obtain ⟨fate, haccounts, hagrees⟩ :=
    (pass_agrees (·.formula) retriedCompiler none noted hc).2 _ _ hpass
  refine ⟨hc, calls, r, hpass, htwo, fate, haccounts, ?_, ?_⟩
  · refine ((hagrees 0 _ .general "See note 3" rfl rfl).1 _).mpr ?_
    obtain ⟨calls, hcompile⟩ := compile_of_key (c := retriedCompiler) h3
    obtain ⟨f, hf, hformula⟩ := single_retried
    exact ⟨calls, f, hcompile.trans (congrArg (fun r => Except.ok (calls, r)) hf), hformula⟩
  · refine ((hagrees 1 _ .other "See note 4" rfl rfl).2 _ _).mpr ?_
    obtain ⟨calls, hcompile⟩ := compile_of_key (c := retriedCompiler) h4
    exact ⟨calls, _, hcompile.trans (congrArg (fun r => Except.ok (calls, r))
      single_retried_error), rfl⟩

end Compilation

end Tariff
