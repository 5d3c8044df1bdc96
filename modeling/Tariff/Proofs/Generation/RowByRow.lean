import Mathlib.Logic.Relation
import Tariff.Proofs.Generation.Rows
import Tariff.Proofs.Json.Items

/-!
The answer to a batch, row by row. Each row stands in the answer as a text of its own, and it counts
exactly if that text, as the answer to a single request, brings a formula. The first such row for an
index decides, so rows that bring nothing new can come and go.
-/

namespace Tariff.Generation

open Json (Encloses)

variable {expected : List Nat} {answer text : String} {texts : List String} {row : Json} {i : Nat}
  {c : Compiled}

def Bears (text : String) (i : Nat) : Prop :=
  ∃ fs, readValue text = .ok (.object fs) ∧ fs.lookup "index" = some (.number (.integer i))

structure Brings (text : String) (i : Nat) (c : Compiled) : Prop where
  bears : Bears text i
  single : readSingle text = .ok c

/-- The answer is an array, and the texts hold its items, one each. -/
def Rows (answer : String) (texts : List String) : Prop :=
  ∃ rows, readValue answer = .ok (.array rows) ∧ texts.map readValue = rows.map .ok

/-- The first of the texts that brings a formula for the index brings this one. -/
def FirstBrings (texts : List String) (i : Nat) (c : Compiled) : Prop :=
  ∃ before t after, texts = before ++ t :: after ∧ Brings t i c ∧
    ∀ t' ∈ before, ∀ c', ¬Brings t' i c'

/-- A text that adds nothing where it stands after `before`. -/
inductive Idle (expected : List Nat) (before : List String) (text : String) : Prop where
  | invalid (h : ∀ i c, ¬Brings text i c)
  | unexpected {i : Nat} (h : Bears text i) (hi : i ∉ expected)
  | answered {i : Nat} {t : String} {c : Compiled} (h : Bears text i) (ht : t ∈ before)
      (hc : Brings t i c)

/-- One text that adds nothing is left out. -/
inductive Drops (expected : List Nat) : List String → List String → Prop where
  | drop {before after : List String} {t : String} (h : Idle expected before t) :
    Drops expected (before ++ t :: after) (before ++ after)

structure RowByRow (expected : List Nat) (answer : String) (found : Indexed Compiled) : Prop where
  read : readBatch expected answer = .ok found
  keys : found.Ascending ∧ ∀ e ∈ found, e.1 ∈ expected
  /-- the answer is made up of texts that hold its rows -/
  texts : ∃ texts, Rows answer texts ∧
    Encloses (Text.trim answer.toList) (texts.map String.toList)
  first : ∀ texts, Rows answer texts → ∀ i c,
    found.lookup i = some c ↔ i ∈ expected ∧ FirstBrings texts i c
  /-- texts that add nothing are left out and put in, any number of them -/
  idle : ∀ texts texts' answer', Rows answer texts → Rows answer' texts' →
    Relation.EqvGen (Drops expected) texts texts' → readBatch expected answer' = .ok found

/-! ### Rows as texts -/

lemma readIndex_eq_ok {fs : List (String × Json)} :
    readIndex (.object fs) = .ok i ↔ fs.lookup "index" = some (.number (.integer i)) := by
  unfold readIndex
  rw [Json.field?]
  split
  next n hn =>
    rw [hn]
    split_ifs with h0
    · simp only [Except.ok.injEq, Option.some.injEq, Json.number.injEq, Json.Number.integer.injEq]
      omega
    · simp only [Option.some.injEq, Json.number.injEq, Json.Number.integer.injEq, false_iff]
      omega
  next hn => exact iff_of_false (by simp) fun h => hn _ h

lemma readSingle_of_object {fs : List (String × Json)} (h : readValue text = .ok (.object fs)) :
    readSingle text = readFields (.object fs) := by
  unfold readSingle
  rw [h]
  rfl

/-- **A row counts** exactly if it bears its index and its text is accepted by itself. -/
theorem brings_iff (h : readValue text = .ok row) : Brings text i c ↔ readRow row = .ok (i, c) := by
  constructor
  · rintro ⟨⟨fs, hfs, hi⟩, hc⟩
    obtain rfl : row = .object fs := Except.ok.inj (h.symm.trans hfs)
    rw [readSingle_of_object hfs] at hc
    exact bind_eq_ok.mpr ⟨i, readIndex_eq_ok.mpr hi, bind_eq_ok.mpr ⟨c, hc, rfl⟩⟩
  · intro hrow
    cases row with
    | object fs =>
      obtain ⟨i', hi, hrow⟩ := bind_eq_ok.mp hrow
      obtain ⟨c', hc, hrow⟩ := bind_eq_ok.mp hrow
      cases hrow
      exact ⟨⟨fs, h, readIndex_eq_ok.mp hi⟩, (readSingle_of_object h).trans hc⟩
    | null | bool | number | string | array => cases hrow

def broughtFor (i : Nat) (text : String) : Option Compiled :=
  (readValue text).toOption.bind (rowFor i)

lemma broughtFor_eq_some : broughtFor i text = some c ↔ Brings text i c := by
  unfold broughtFor
  cases h : readValue text with
  | ok row => exact rowFor_eq_some.trans (brings_iff h).symm
  | error f =>
    refine iff_of_false (by simp [Except.toOption]) ?_
    rintro ⟨⟨fs, hfs, -⟩, -⟩
    rw [h] at hfs
    cases hfs

lemma broughtFor_eq_none : broughtFor i text = none ↔ ∀ c, ¬Brings text i c := by
  rw [Option.eq_none_iff_forall_ne_some]
  exact forall_congr' fun c => not_congr broughtFor_eq_some

lemma firstBrings_iff : texts.findSome? (broughtFor i) = some c ↔ FirstBrings texts i c := by
  simp only [List.findSome?_eq_some_iff, broughtFor_eq_some, broughtFor_eq_none]
  rfl

lemma Bears.eq {j : Nat} (hi : Bears text i) (hj : Bears text j) : i = j := by
  obtain ⟨fs, hfs, hi⟩ := hi
  obtain ⟨fs', hfs', hj⟩ := hj
  cases hfs.symm.trans hfs'
  have := hi.symm.trans hj
  simpa using this

/-! ### The batch -/

lemma lookup_of_rows (expected : List Nat) (h : Rows answer texts) :
    ∃ found, readBatch expected answer = .ok found ∧ found.Ascending ∧
      ∀ i, found.lookup i = if i ∈ expected then texts.findSome? (broughtFor i) else none := by
  obtain ⟨rows, hrows, htexts⟩ := h
  have hread : readBatch expected answer = .ok (rows.foldl (addRow expected) []) := by
    unfold readBatch
    rw [hrows]
    rfl
  refine ⟨_, hread, ascending_readBatch hread, fun i => ?_⟩
  have hfirst : firstRow? i answer = texts.findSome? (broughtFor i) := by
    have hmap := congrArg (List.findSome? fun r => r.toOption.bind (rowFor i)) htexts
    rw [List.findSome?_map, List.findSome?_map] at hmap
    unfold firstRow?
    rw [hrows]
    exact hmap.symm
  have hlookup := lookup_readBatch expected answer i
  rw [hread] at hlookup
  rw [← hfirst]
  exact hlookup

lemma Idle.broughtFor_eq {before : List String} (h : Idle expected before text) (hi : i ∈ expected)
    (hnone : before.findSome? (broughtFor i) = none) : broughtFor i text = none := by
  refine broughtFor_eq_none.mpr fun c hc => ?_
  cases h with
  | invalid h => exact h i c hc
  | unexpected hbears hnot => exact hnot (hbears.eq hc.bears ▸ hi)
  | answered hbears ht hbrings =>
    obtain rfl := hbears.eq hc.bears
    exact broughtFor_eq_none.mp (List.findSome?_eq_none_iff.mp hnone _ ht) _ hbrings

lemma findSome?_of_drops {texts' : List String} (h : Drops expected texts texts')
    (hi : i ∈ expected) : texts.findSome? (broughtFor i) = texts'.findSome? (broughtFor i) := by
  cases h with
  | @drop before after t h =>
    rw [List.findSome?_append, List.findSome?_append]
    cases hbefore : before.findSome? (broughtFor i) with
    | some c => rfl
    | none => rw [List.findSome?_cons, h.broughtFor_eq hi hbefore]

lemma findSome?_of_eqvGen {texts' : List String}
    (h : Relation.EqvGen (Drops expected) texts texts') (hi : i ∈ expected) :
    texts.findSome? (broughtFor i) = texts'.findSome? (broughtFor i) := by
  induction h with
  | rel _ _ h => exact findSome?_of_drops h hi
  | refl => rfl
  | symm _ _ _ ih => exact ih.symm
  | trans _ _ _ _ _ ih ih' => exact ih.trans ih'

/-! ### The texts of an answer -/

lemma readValue_eq_ok {j : Json} : readValue text = .ok j ↔
    Json.parse? (String.ofList (Text.trim text.toList)) = some j := by
  unfold readValue
  dsimp only
  split_ifs with hempty
  · rw [List.isEmpty_iff.mp hempty]
    exact iff_of_false (by simp) (by rintro ⟨⟩)
  · cases Json.parse? (String.ofList (Text.trim text.toList)) <;> simp

/-- Blanks around a text that holds a value do not matter. -/
lemma readValue_of_parse? {j : Json} (h : Json.parse? text = some j) : readValue text = .ok j := by
  obtain ⟨d, hd, hj⟩ := Option.bind_eq_some_iff.mp h
  obtain ⟨ts, hts, hdue⟩ := Option.bind_eq_some_iff.mp hd
  refine readValue_eq_ok.mpr (Option.bind_eq_some_iff.mpr ⟨d, ?_, hj⟩)
  rw [String.toList_ofList]
  exact Option.bind_eq_some_iff.mpr ⟨ts, Json.tokens_trim hts, hdue⟩

lemma exists_texts {rows : List Json} (h : readValue answer = .ok (.array rows)) :
    ∃ texts, Rows answer texts ∧
      Encloses (Text.trim answer.toList) (texts.map String.toList) := by
  obtain ⟨texts, hencloses, htexts⟩ := Json.exists_texts_of_parse? (readValue_eq_ok.mp h)
  rw [String.toList_ofList] at hencloses
  exact ⟨texts, ⟨rows, h, map_eq_map_of_some htexts fun _ _ => readValue_of_parse?⟩, hencloses⟩

/-- **A batch is judged row by row**, each row as the answer to a single request would be. -/
theorem rows_judged_singly (expected : List Nat) {answer : String} {rows : List Json}
    (h : readValue answer = .ok (.array rows)) : ∃ found, RowByRow expected answer found := by
  obtain ⟨texts, hrows, hencloses⟩ := exists_texts h
  obtain ⟨found, hread, hascending, hlookup⟩ := lookup_of_rows expected hrows
  have hfound {texts' : List String} (hrows' : Rows answer texts') (i : Nat) :
      found.lookup i = if i ∈ expected then texts'.findSome? (broughtFor i) else none := by
    obtain ⟨found', hread', -, hlookup'⟩ := lookup_of_rows expected hrows'
    cases hread.symm.trans hread'
    exact hlookup' i
  refine ⟨found, ?_⟩
  constructor
  case read => exact hread
  case keys =>
    refine ⟨hascending, fun e he => ?_⟩
    have hmem := hascending.lookup_of_mem he
    rw [hlookup] at hmem
    by_contra hnot
    rw [if_neg hnot] at hmem
    cases hmem
  case texts => exact ⟨texts, hrows, hencloses⟩
  case first =>
    intro texts' hrows' i c
    rw [hfound hrows', ← firstBrings_iff]
    split_ifs with hi <;> simp [hi]
  case idle =>
    intro texts₁ texts₂ answer' h₁ h₂ heqv
    obtain ⟨found', hread', hascending', hlookup'⟩ := lookup_of_rows expected h₂
    have hsame : found' = found := hascending'.eq_of_lookup hascending fun i => by
      rw [hlookup', hfound h₁]
      split_ifs with hi
      · exact (findSome?_of_eqvGen heqv hi).symm
      · rfl
    rw [hread', hsame]

def mixedAnswer : String :=
  "[\x7b\"index\": 0\x7d, 7, " ++
    "\x7b\"index\": 0, \"formula\": \"0\", \"variables\": [], \"confidence\": 1\x7d]"

def itemsOf : Json → List Json
  | .array items => items
  | _ => []

theorem rows_judged_singly_mixedAnswer :
    ∃ found c, RowByRow [0] mixedAnswer found ∧ found.lookup 0 = some c ∧ c.formula = "0" := by
  have h : ((Json.parse? mixedAnswer).bind fun j =>
      ((itemsOf j).findSome? (rowFor 0)).map (·.formula)) = some "0" := by decide +kernel
  obtain ⟨j, hj, h⟩ := Option.bind_eq_some_iff.mp h
  cases j with
  | array rows =>
    obtain ⟨c, hc, hformula⟩ := Option.map_eq_some_iff.mp h
    have hrows := readValue_of_parse? hj
    obtain ⟨found, hfound⟩ := rows_judged_singly [0] hrows
    have hlookup := lookup_readBatch [0] mixedAnswer 0
    unfold firstRow? at hlookup
    rw [hfound.read, hrows] at hlookup
    exact ⟨found, c, hfound, hlookup.trans hc, hformula⟩
  | null | bool | number | string | object => cases h

end Tariff.Generation
