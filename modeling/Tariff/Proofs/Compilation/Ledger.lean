import Mathlib.Data.List.Perm.Basic
import Mathlib.Data.List.ProdSigma
import Tariff.Proofs.Compilation.Trusted

/-!
The account of a compile pass. Each rate column of each entry is skipped, or there is one update or
one failure for it, and nothing else is reported. Columns that the grammar does not know share an
item exactly if they are asked for by the same text and unit, and what comes of the item is what
comes of all of them.
-/

namespace Tariff.Compilation

open Tariff.Generation
open scoped List

/-! ### What becomes of a rate column -/

inductive Fate where
  | skip
  | update (u : FormulaUpdate)
  | failure (f : CellFailure)

namespace Fate

def update? : Fate → Option FormulaUpdate
  | .update u => some u
  | _ => none

def failure? : Fate → Option CellFailure
  | .failure f => some f
  | _ => none

def isSkip : Fate → Bool
  | .skip => true
  | _ => false

def outcome? : Fate → Option (Except Failure Compiled)
  | .skip => none
  | .update u => some (.ok u.compiled)
  | .failure f => some (.error f.failure)

inductive Fits (e : Entry) (col : Column) : Fate → Prop where
  | skip : (e.rate col).text = none → Fits e col .skip
  | update {u : FormulaUpdate} : (e.rate col).text.isSome = true → u.code = e.code →
    u.column = col → Fits e col (.update u)
  | failure {f : CellFailure} : (e.rate col).text = some f.cell.text → f.cell.code = e.code →
    f.cell.column = col → Fits e col (.failure f)

end Fate

def slots (es : List Entry) : List (Nat × Column) := List.range es.length ×ˢ Column.all

/-- A report accounts for each rate column once, and for nothing else. -/
structure Accounts (es : List Entry) (r : Report) (fate : Nat × Column → Fate) : Prop where
  fits : ∀ i e col, es[i]? = some e → (fate (i, col)).Fits e col
  updates : r.updates ~ (slots es).filterMap fun s => (fate s).update?
  failures : r.failures ~ (slots es).filterMap fun s => (fate s).failure?
  skipped : r.skipped = (slots es).countP fun s => (fate s).isSkip

lemma length_slots (es : List Entry) : (slots es).length = 2 * es.length := by
  unfold slots
  rw [List.length_product, List.length_range, Nat.mul_comm]
  rfl

/-- There are two reports, or skips, for each entry. -/
lemma Accounts.total {es : List Entry} {r : Report} {fate : Nat × Column → Fate}
    (h : Accounts es r fate) :
    r.updates.length + r.failures.length + r.skipped = 2 * es.length := by
  have hone (f : Fate) : (if f.update?.isSome then 1 else 0) +
      (if f.failure?.isSome then 1 else 0) + (if f.isSkip then 1 else 0) = 1 := by
    cases f <;> rfl
  have hsum (l : List (Nat × Column)) :
      l.countP (fun s => (fate s).update?.isSome) + l.countP (fun s => (fate s).failure?.isSome) +
        l.countP (fun s => (fate s).isSkip) = l.length := by
    induction l with
    | nil => rfl
    | cons s l ih =>
      have := hone (fate s)
      simp only [List.countP_cons, List.length_cons]
      omega
  rw [h.updates.length_eq, h.failures.length_eq, h.skipped, List.length_filterMap_eq_countP,
    List.length_filterMap_eq_countP, hsum, length_slots]

/-! ### Going through the columns -/

lemma filterMap_slots {β : Type} {es : List Entry} (pick : Nat × Column → Option β)
    (pickOf : Entry → Column → Option β)
    (h : ∀ i e col, es[i]? = some e → pick (i, col) = pickOf e col) :
    (slots es).filterMap pick = es.flatMap fun e => Column.all.filterMap (pickOf e) := by
  have hslots : slots es = es.zipIdx.flatMap fun p => Column.all.map (p.2, ·) := by
    unfold slots
    rw [List.range_eq_range', ← List.zipIdx_map_snd]
    exact List.flatMap_map Prod.snd (fun i => Column.all.map (Prod.mk i)) es.zipIdx
  have hentries : es.flatMap (fun e => Column.all.filterMap (pickOf e)) =
      es.zipIdx.flatMap fun p => Column.all.filterMap (pickOf p.1) := by
    conv_lhs => rw [← List.zipIdx_map_fst 0 es, List.flatMap_map]
  rw [hslots, hentries, List.filterMap_flatMap]
  refine List.flatMap_congr fun p hp => ?_
  rw [List.filterMap_map]
  refine List.filterMap_congr fun col _ => ?_
  exact h p.2 p.1 col (List.mem_zipIdx_iff_getElem?.mp hp)

/-! ### What a pass makes of a text -/

/-- What a text with a unit is asked for by, if the grammar does not know it. -/
def key? (text : String) (unit : Option String) : Option Key :=
  match Rate.compile text unit with
  | .unresolved normal => some (normal, unit)
  | _ => none

/-- The items of a pass over these entries. -/
def itemsFor (es : List Entry) : List Item := itemsOf (keysOf (unresolved (cells es)))

def Compiler.brought (c : Compiler) (es : List Entry) (k : Key) : Except Failure Compiled :=
  match c.generator with
  | some g => answerFor (keysOf (unresolved (cells es))) (g.all (itemsFor es)).results k
  | none => .error .noProvider

/-- What a pass over these entries makes of a text with a unit; a text that stops it is none that it
makes anything of. -/
def Compiler.verdict (c : Compiler) (es : List Entry) (text : String) (unit : Option String) :
    Except Failure Compiled :=
  match Rate.compile text unit with
  | .compiled f => gated f
  | .unresolved normal => c.brought es (normal, unit)
  | .stopped _ => .error .noProvider

def known (cs : List Cell) : List Cell := cs.filter fun x => (key? x.text x.unit).isNone

def unknown (cs : List Cell) : List Cell := cs.filter fun x => !(key? x.text x.unit).isNone

variable {c : Compiler} {now : Option Instant} {es : List Entry}

lemma settled_eq (c : Compiler) (es : List Entry) {cs : List Cell}
    (h : ∀ x ∈ cs, x.fault? = none) :
    settled cs = (known cs).map fun x => (x, c.verdict es x.text x.unit) := by
  unfold settled known key? Compiler.verdict
  rw [← List.filterMap_eq_map, List.filterMap_filter]
  refine List.filterMap_congr fun x hmem => ?_
  cases hx : Rate.compile x.text x.unit with
  | compiled f => simp [hx]
  | unresolved normal => rfl
  | stopped f => exact absurd hx (fault?_eq_none_iff.mp (h x hmem) f)

lemma pending_eq (c : Compiler) (es : List Entry) (cs : List Cell) :
    (unresolved cs).map (fun p => (p.1, c.brought es p.2)) =
      (unknown cs).map fun x => (x, c.verdict es x.text x.unit) := by
  unfold unresolved unknown key? Compiler.verdict
  rw [← List.filterMap_eq_map, ← List.filterMap_eq_map, List.filterMap_filter,
    List.filterMap_filterMap]
  refine List.filterMap_congr fun x _ => ?_
  cases hx : Rate.compile x.text x.unit with
  | unresolved normal => simp [hx]
  | compiled | stopped => rfl

/-- **The report of a pass**: what it makes of the cells that the grammar knows, then of the
others. -/
theorem answer_eq (c : Compiler) (now : Option Instant) (h : Writable es) :
    (c.answer now es).2 =
      let answers := (known (cells es) ++ unknown (cells es)).map fun x =>
        (x, c.verdict es x.text x.unit)
      ⟨updatesOf now answers, failuresOf answers, blanks es⟩ := by
  have hanswers : settled (cells es) ++
      (unresolved (cells es)).map (fun p => (p.1, c.brought es p.2)) =
      (known (cells es) ++ unknown (cells es)).map fun x => (x, c.verdict es x.text x.unit) := by
    rw [settled_eq c es h, pending_eq, List.map_append]
  rw [← hanswers]
  unfold Compiler.answer Compiler.brought
  cases c.generator <;> rfl

/-! ### The account -/

def Compiler.fateOf (c : Compiler) (now : Option Instant) (es : List Entry) (e : Entry)
    (col : Column) : Fate :=
  match (e.rate col).text with
  | none => .skip
  | some text =>
    match c.verdict es text e.unit with
    | .ok f => .update ⟨e.code, col, f, now⟩
    | .error x => .failure ⟨⟨e.code, col, text, e.unit⟩, x⟩

def Compiler.fate (c : Compiler) (now : Option Instant) (es : List Entry) (s : Nat × Column) :
    Fate :=
  match es[s.1]? with
  | none => .skip
  | some e => c.fateOf now es e s.2

lemma fate_eq {i : Nat} {e : Entry} (he : es[i]? = some e) (col : Column) :
    c.fate now es (i, col) = c.fateOf now es e col := by
  unfold Compiler.fate
  rw [he]

lemma fits_fateOf (e : Entry) (col : Column) : (c.fateOf now es e col).Fits e col := by
  unfold Compiler.fateOf
  cases ht : (e.rate col).text with
  | none => exact .skip ht
  | some text =>
    dsimp only
    cases c.verdict es text e.unit with
    | ok f => exact .update (by rw [ht]; rfl) rfl rfl
    | error x => exact .failure ht rfl rfl

lemma outcome?_fateOf (e : Entry) (col : Column) :
    (c.fateOf now es e col).outcome? = (e.rate col).text.map (c.verdict es · e.unit) := by
  unfold Compiler.fateOf
  cases (e.rate col).text with
  | none => rfl
  | some text =>
    dsimp only [Option.map_some]
    cases c.verdict es text e.unit <;> rfl

/-- What is reported of the cells is what is picked from the columns. -/
lemma filterMap_cells {β : Type} {pick : Cell × Except Failure Compiled → Option β}
    {pickOf : Fate → Option β} (hskip : pickOf .skip = none)
    (hok : ∀ x f, pick (x, .ok f) = pickOf (.update ⟨x.code, x.column, f, now⟩))
    (herror : ∀ x e, pick (x, .error e) = pickOf (.failure ⟨x, e⟩)) :
    ((known (cells es) ++ unknown (cells es)).map fun x =>
        (x, c.verdict es x.text x.unit)).filterMap pick ~
      (slots es).filterMap fun s => pickOf (c.fate now es s) := by
  have hperm : known (cells es) ++ unknown (cells es) ~ cells es := List.filter_append_perm _ _
  refine ((hperm.map _).filterMap _).trans (.of_eq ?_)
  rw [filterMap_slots _ (fun e col => pickOf (c.fateOf now es e col))
    fun i e col he => by rw [fate_eq he]]
  unfold cells
  rw [List.filterMap_map, List.filterMap_flatMap]
  refine List.flatMap_congr fun e _ => ?_
  unfold cellsOf
  rw [List.filterMap_filterMap]
  refine List.filterMap_congr fun col _ => ?_
  unfold Compiler.fateOf
  cases (e.rate col).text with
  | none => exact hskip.symm
  | some text =>
    simp only [Option.map_some, Option.bind_some, Function.comp_apply]
    cases c.verdict es text e.unit with
    | ok f => exact hok _ f
    | error x => exact herror _ x

lemma blanks_eq (c : Compiler) (now : Option Instant) (es : List Entry) :
    blanks es = (slots es).countP fun s => (c.fate now es s).isSkip := by
  have hskip (e : Entry) (col : Column) :
      (c.fateOf now es e col).isSkip = (e.rate col).text.isNone := by
    unfold Compiler.fateOf
    cases (e.rate col).text with
    | none => rfl
    | some text =>
      dsimp only
      cases c.verdict es text e.unit <;> rfl
  have hcount : (slots es).countP (fun s => (c.fate now es s).isSkip) = ((slots es).filterMap
      fun s => if (c.fate now es s).isSkip then some s.2 else none).length := by
    rw [List.length_filterMap_eq_countP]
    refine List.countP_congr fun s _ => ?_
    split_ifs with h <;> simp [h]
  rw [hcount, filterMap_slots _ (fun e => Option.guard fun col => (e.rate col).text.isNone)
    fun i e col he => by rw [fate_eq he, hskip]; rfl]
  simp only [List.filterMap_eq_filter]
  rfl

/-- **A pass accounts for every rate column.** -/
theorem accounts_answer (c : Compiler) (now : Option Instant) (h : Writable es) :
    Accounts es (c.answer now es).2 (c.fate now es) where
  fits i e col he := by
    rw [fate_eq he]
    exact fits_fateOf e col
  updates := by
    rw [answer_eq c now h]
    exact filterMap_cells rfl (fun _ _ => rfl) fun _ _ => rfl
  failures := by
    rw [answer_eq c now h]
    exact filterMap_cells rfl (fun _ _ => rfl) fun _ _ => rfl
  skipped := by
    rw [answer_eq c now h]
    exact blanks_eq c now es

/-! ### Shared items -/

/-- What a rate column is asked for by, if it has a text that the grammar does not know. -/
def keyAt? (es : List Entry) (s : Nat × Column) : Option Key := do
  let e ← es[s.1]?
  key? (← (e.rate s.2).text) e.unit

/-- How the rate columns share the items of a bulk pass: a column has an item if the grammar does
not know its text, it is asked for by that text and unit, and what comes of the item is what comes
of the column. Equal keys have one item, other keys have others. -/
structure Shares (g : Generator) (es : List Entry) (calls : List Request)
    (fate : Nat × Column → Fate) (items : List Item) (item? : Nat × Column → Option Item) :
    Prop where
  calls : calls = (g.all items).calls
  distinct : (items.map (·.index)).Nodup
  mem : ∀ s, ∀ i ∈ item? s, i ∈ items
  used : ∀ i ∈ items, ∃ s, item? s = some i
  key : ∀ s, (item? s).map (fun i => (i.text, i.hint)) = keyAt? es s
  shared : ∀ s s' i i', item? s = some i → item? s' = some i' →
    (i = i' ↔ keyAt? es s = keyAt? es s')
  outcome : ∀ s, ∀ i ∈ item? s, (fate s).outcome? = (g.all items).results.lookup i.index

def itemFor (es : List Entry) (k : Key) : Item :=
  ⟨(keysOf (unresolved (cells es))).idxOf k, k.1, k.2⟩

lemma keyAt?_eq {i : Nat} {e : Entry} (he : es[i]? = some e) (col : Column) :
    keyAt? es (i, col) = (e.rate col).text.bind (key? · e.unit) := by
  unfold keyAt?
  rw [he]
  rfl

lemma map_unresolved (es : List Entry) :
    (unresolved (cells es)).map (·.2) = (slots es).filterMap (keyAt? es) := by
  rw [filterMap_slots _ _ fun i e col he => keyAt?_eq he col]
  unfold unresolved cells
  rw [List.map_filterMap, List.filterMap_flatMap]
  refine List.flatMap_congr fun e _ => ?_
  unfold cellsOf
  rw [List.filterMap_filterMap]
  refine List.filterMap_congr fun col _ => ?_
  cases (e.rate col).text with
  | none => rfl
  | some text =>
    simp only [Option.map_some, Option.bind_some, key?]
    cases Rate.compile text e.unit <;> rfl

lemma mem_slots {s : Nat × Column} {k : Key} (h : keyAt? es s = some k) : s ∈ slots es := by
  obtain ⟨e, he, -⟩ := Option.bind_eq_some_iff.mp h
  refine List.mem_product.mpr ⟨List.mem_range.mpr (List.getElem?_eq_some_iff.mp he).1, ?_⟩
  cases s.2 <;> decide

lemma mem_keys {k : Key} : k ∈ keysOf (unresolved (cells es)) ↔ ∃ s, keyAt? es s = some k := by
  unfold keysOf
  rw [List.mem_eraseDups, map_unresolved, List.mem_filterMap]
  exact exists_congr fun s => and_iff_right_of_imp mem_slots

lemma mem_itemsFor {i : Item} :
    i ∈ itemsFor es ↔ ∃ k ∈ keysOf (unresolved (cells es)), itemFor es k = i := by
  have hd : (keysOf (unresolved (cells es))).Nodup := nodup_eraseDups _
  unfold itemsFor itemsOf
  rw [List.mem_mapIdx]
  constructor
  · rintro ⟨n, hn, rfl⟩
    refine ⟨_, List.getElem_mem hn, ?_⟩
    unfold itemFor
    rw [hd.idxOf_getElem]
  · rintro ⟨k, hk, rfl⟩
    refine ⟨_, List.idxOf_lt_length_of_mem hk, ?_⟩
    rw [List.getElem_idxOf]
    rfl

lemma readable_accepted : Readable fun f => Formula.Accepted f.formula :=
  fun _ _ h => (vetted_of_readFields h).accepted

lemma gated_of_accepted {f : Compiled} (h : Formula.Accepted f.formula) : gated f = .ok f := by
  have hr : Formula.refusal? f.formula = none := h
  unfold gated
  rw [hr]

lemma verdict_of_key {text : String} {unit : Option String} {k : Key}
    (h : key? text unit = some k) : c.verdict es text unit = c.brought es k := by
  unfold key? at h
  unfold Compiler.verdict
  split at h
  next hr =>
    rw [hr]
    cases h
    rfl
  next => cases h

/-- What comes of an item is what the pass makes of the texts that share it. -/
lemma lookup_itemFor {g : Generator} (hg : c.generator = some g) {text : String}
    {unit : Option String} {k : Key} (hk : key? text unit = some k)
    (hmem : k ∈ keysOf (unresolved (cells es))) :
    (g.all (itemsFor es)).results.lookup (itemFor es k).index =
      some (c.verdict es text unit) := by
  have hsome := (g.brings_all (itemsFor es)).isSome_lookup (nodup_itemsOf _)
    (mem_itemsFor.mpr ⟨k, hmem, rfl⟩)
  obtain ⟨r, hr⟩ := Option.isSome_iff_exists.mp hsome
  have hgated : r.bind gated = r := by
    cases r with
    | error e => rfl
    | ok f => exact gated_of_accepted (readable_accepted.all g _ _ _ (mem_of_lookup_eq_some hr))
  have hr' : (g.all (itemsFor es)).results.lookup ((keysOf (unresolved (cells es))).idxOf k) =
      some r := hr
  rw [hr, verdict_of_key hk, Compiler.brought, hg]
  dsimp only
  rw [answerFor, hr']
  exact congrArg some hgated.symm

theorem shares_answer (now : Option Instant) (es : List Entry) {g : Generator}
    (hg : c.generator = some g) :
    Shares g es (c.answer now es).1 (c.fate now es) (itemsFor es)
      fun s => (keyAt? es s).map (itemFor es) where
  calls := calls_answer hg now es
  distinct := nodup_itemsOf _
  mem s i hi := by
    obtain ⟨k, hk, rfl⟩ := Option.map_eq_some_iff.mp hi
    exact mem_itemsFor.mpr ⟨k, mem_keys.mpr ⟨s, hk⟩, rfl⟩
  used i hi := by
    obtain ⟨k, hk, rfl⟩ := mem_itemsFor.mp hi
    obtain ⟨s, hs⟩ := mem_keys.mp hk
    exact ⟨s, by rw [hs]; rfl⟩
  key s := by
    rw [Option.map_map]
    exact Option.map_id_apply
  shared s s' i i' hi hi' := by
    obtain ⟨k, hk, rfl⟩ := Option.map_eq_some_iff.mp hi
    obtain ⟨k', hk', rfl⟩ := Option.map_eq_some_iff.mp hi'
    rw [hk, hk', Option.some.injEq]
    constructor
    · intro h
      rw [itemFor, itemFor, Item.mk.injEq] at h
      exact Prod.ext h.2.1 h.2.2
    · rintro rfl
      rfl
  outcome s i hi := by
    obtain ⟨k, hk, rfl⟩ := Option.map_eq_some_iff.mp hi
    obtain ⟨e, he, hk'⟩ := Option.bind_eq_some_iff.mp hk
    obtain ⟨text, ht, hkey⟩ := Option.bind_eq_some_iff.mp hk'
    rw [lookup_itemFor hg hkey (mem_keys.mpr ⟨s, hk⟩), fate_eq he, outcome?_fateOf, ht]
    rfl

lemma outcome?_of_keyAt? {s : Nat × Column} {k : Key} (h : keyAt? es s = some k) :
    (c.fate now es s).outcome? = some (c.brought es k) := by
  obtain ⟨e, he, h⟩ := Option.bind_eq_some_iff.mp h
  obtain ⟨text, ht, hk⟩ := Option.bind_eq_some_iff.mp h
  rw [fate_eq he, outcome?_fateOf, ht, Option.map_some, verdict_of_key hk]

/-- **Nothing is lost in a pass and nothing is counted twice.** A pass comes to its end unless a text
stops the grammar, and then it accounts for both rate columns of every entry. Columns that are asked
for alike share an item and come out alike; columns that are asked for by different keys never share
one. -/
theorem pass_accounts (c : Compiler) (now : Option Instant) (es : List Entry) :
    ((∃ f, c.pass now es = .error f) ↔
      ∃ x ∈ cells es, ∃ f, Rate.compile x.text x.unit = .stopped f) ∧
    ∀ calls r, c.pass now es = .ok (calls, r) → ∃ fate, Accounts es r fate ∧
      r.updates.length + r.failures.length + r.skipped = 2 * es.length ∧
      (∀ s s' k, keyAt? es s = some k → keyAt? es s' = some k →
        (fate s).outcome? = (fate s').outcome?) ∧
      ∀ g, c.generator = some g → ∃ items item?, Shares g es calls fate items item? := by
  refine ⟨exists_pass_error_iff, fun calls r hpass => ?_⟩
  obtain ⟨hw, hpass⟩ := pass_eq_ok_iff.mp hpass
  obtain ⟨rfl, rfl⟩ := Prod.mk.inj hpass
  have haccounts := accounts_answer c now hw
  refine ⟨c.fate now es, haccounts, haccounts.total, fun s s' k h h' => ?_,
    fun g hg => ⟨_, _, shares_answer now es hg⟩⟩
  rw [outcome?_of_keyAt? h, outcome?_of_keyAt? h']

/-- Three columns with one text, of which the last has another unit; the other columns are blank. -/
def repeated : List Entry :=
  [{ code := "0101", general.text := some "See note 3" },
    { code := "0102", other.text := some " see Note 3" },
    { code := "0103", unit := some "kg", general.text := some "See note 3" }]

theorem pass_accounts_repeated :
    keyAt? repeated (0, .general) = some ("see note 3", none) ∧
    keyAt? repeated (1, .other) = some ("see note 3", none) ∧
    keyAt? repeated (2, .general) = some ("see note 3", some "kg") ∧
    ∃ calls r fate items item?, twentiethCompiler.pass none repeated = .ok (calls, r) ∧
      Accounts repeated r fate ∧
      Shares ⟨twentieth, .default⟩ repeated calls fate items item? ∧
      (fate (0, .general)).outcome? = (fate (1, .other)).outcome? ∧
      item? (0, .general) = item? (1, .other) ∧ item? (0, .general) ≠ item? (2, .general) := by
  have h0 : keyAt? repeated (0, .general) = some ("see note 3", none) := by decide +kernel
  have h1 : keyAt? repeated (1, .other) = some ("see note 3", none) := by decide +kernel
  have h2 : keyAt? repeated (2, .general) = some ("see note 3", some "kg") := by decide +kernel
  obtain ⟨hstops, hends⟩ := pass_accounts twentiethCompiler none repeated
  cases hpass : twentiethCompiler.pass none repeated with
  | error f =>
    have hnone : (cells repeated).all (·.fault?.isNone) = true := by decide +kernel
    obtain ⟨x, hx, f, hf⟩ := hstops.mp ⟨f, hpass⟩
    have := List.all_eq_true.mp hnone x hx
    rw [fault?_eq_some_iff.mpr hf] at this
    cases this
  | ok p =>
    obtain ⟨fate, haccounts, -, halike, hshares⟩ := hends _ _ hpass
    obtain ⟨items, item?, h⟩ := hshares _ rfl
    refine ⟨h0, h1, h2, _, _, fate, items, item?, rfl, haccounts, h, halike _ _ _ h0 h1, ?_,
      fun heq => ?_⟩
    · obtain ⟨i, hi, -⟩ := Option.map_eq_some_iff.mp ((h.key (0, .general)).trans h0)
      obtain ⟨i', hi', -⟩ := Option.map_eq_some_iff.mp ((h.key (1, .other)).trans h1)
      rw [hi, hi', (h.shared _ _ i i' hi hi').mpr (h0.trans h1.symm)]
    · have hkeys :=
        (h.key (0, .general)).symm.trans ((congrArg _ heq).trans (h.key (2, .general)))
      rw [h0, h2] at hkeys
      exact absurd hkeys (by decide)

end Tariff.Compilation
