import Mathlib.Data.List.Basic
import Tariff.Compilation.Pass
import Tariff.Proofs.Generation.Results
import Tariff.Proofs.Rate.Finite

/-!
The updates of a compile pass. What the grammar knows comes first, then what the generator brings;
either way the formula is the outcome for the text and the unit of its cell, and it passes the
gate.
-/

namespace Tariff.Compilation

open Tariff.Generation

/-- The formula that the grammar has for a text with a unit, if it is trusted. -/
def known? (text : String) (unit : Option String) : Option Compiled :=
  match Rate.compile text unit with
  | .compiled f => (gated f).toOption
  | _ => none

/-- The formula that the generator brings, in a pass over these entries, for a text that the
grammar does not know. -/
def Compiler.generated? (c : Compiler) (es : List Entry) (text : String) (unit : Option String) :
    Option Compiled :=
  match Rate.compile text unit with
  | .unresolved normal => c.generator.bind fun g =>
      let keys := keysOf (unresolved (cells es))
      (answerFor keys (g.all (itemsOf keys)).results (normal, unit)).toOption
  | _ => none

def Compiler.outcome? (c : Compiler) (es : List Entry) (text : String) (unit : Option String) :
    Option Compiled :=
  (known? text unit).or (c.generated? es text unit)

/-- Whatever formulas are found for the text and the unit of a rate column. -/
def inColumn (found : String → Option String → Option Compiled) (col : Column) (e : Entry) :
    Option Compiled :=
  (e.rate col).text.bind (found · e.unit)

def updatesBy (now : Option Instant) (found : String → Option String → Option Compiled)
    (cs : List Cell) : List FormulaUpdate :=
  cs.filterMap fun c => (found c.text c.unit).map fun f => ⟨c.code, c.column, f, now⟩

lemma updatesOf_settled (now : Option Instant) (cs : List Cell) :
    updatesOf now (settled cs) = updatesBy now known? cs := by
  unfold updatesOf settled updatesBy known?
  rw [List.filterMap_filterMap]
  refine List.filterMap_congr fun c _ => ?_
  cases Rate.compile c.text c.unit <;> rfl

/-! ### When a pass stops -/

def Writable (es : List Entry) : Prop := ∀ x ∈ cells es, x.fault? = none

lemma fault?_eq_some_iff {x : Cell} {f : Formula.Fault} :
    x.fault? = some f ↔ Rate.compile x.text x.unit = .stopped f := by
  unfold Cell.fault? Rate.Outcome.fault?
  cases Rate.compile x.text x.unit <;> simp

lemma fault?_eq_none_iff {x : Cell} :
    x.fault? = none ↔ ∀ f, Rate.compile x.text x.unit ≠ .stopped f := by
  simp only [Option.eq_none_iff_forall_ne_some, ne_eq, fault?_eq_some_iff]

/-- A pass that comes to an end brings what it brings if it does not stop. -/
lemma pass_eq_ok_iff {c : Compiler} {now : Option Instant} {es : List Entry}
    {p : List Request × Report} :
    c.pass now es = .ok p ↔ Writable es ∧ p = c.answer now es := by
  unfold Compiler.pass Writable
  cases hf : (cells es).findSome? Cell.fault? with
  | none =>
    rw [and_iff_right (List.findSome?_eq_none_iff.mp hf), Except.ok.injEq, eq_comm]
  | some f =>
    obtain ⟨x, hx, hfault⟩ := List.exists_of_findSome?_eq_some hf
    refine iff_of_false nofun fun ⟨hnone, _⟩ => ?_
    rw [hnone x hx] at hfault
    cases hfault

/-- A pass stops at the first cell that is at fault, and for no other cause. -/
lemma pass_eq_error_iff {c : Compiler} {now : Option Instant} {es : List Entry}
    {f : Formula.Fault} :
    c.pass now es = .error f ↔ (cells es).findSome? Cell.fault? = some f := by
  unfold Compiler.pass
  cases (cells es).findSome? Cell.fault? <;> simp

lemma exists_pass_error_iff {c : Compiler} {now : Option Instant} {es : List Entry} :
    (∃ f, c.pass now es = .error f) ↔
      ∃ x ∈ cells es, ∃ f, Rate.compile x.text x.unit = .stopped f := by
  simp only [pass_eq_error_iff, ← fault?_eq_some_iff, ← Option.isSome_iff_exists,
    List.findSome?_isSome_iff]

/-! ### What a pass brings -/

/-- The formula for a text that the grammar does not know, as the answers to keys have it. -/
def answered? (answer : Key → Except Failure Compiled) (text : String) (unit : Option String) :
    Option Compiled :=
  match Rate.compile text unit with
  | .unresolved normal => (answer (normal, unit)).toOption
  | _ => none

lemma updatesOf_unresolved (now : Option Instant) (answer : Key → Except Failure Compiled)
    (cs : List Cell) :
    updatesOf now ((unresolved cs).map fun p => (p.1, answer p.2)) =
      updatesBy now (answered? answer) cs := by
  unfold updatesOf unresolved updatesBy answered?
  rw [List.filterMap_map, List.filterMap_filterMap]
  refine List.filterMap_congr fun c _ => ?_
  dsimp only
  cases Rate.compile c.text c.unit <;> rfl

/-- **The updates of a pass**: first what the grammar knows, then what the generator brings. -/
theorem updates_answer (c : Compiler) (now : Option Instant) (es : List Entry) :
    (c.answer now es).2.updates =
      updatesBy now known? (cells es) ++ updatesBy now (c.generated? es) (cells es) := by
  have happend (xs ys) : updatesOf now (xs ++ ys) = updatesOf now xs ++ updatesOf now ys :=
    List.filterMap_append
  unfold Compiler.answer
  cases hg : c.generator with
  | none =>
    have hfound : c.generated? es = answered? fun _ => .error .noProvider := by
      unfold Compiler.generated?
      rw [hg]
      rfl
    dsimp only
    rw [happend, updatesOf_settled, hfound, ← updatesOf_unresolved]
  | some g =>
    have hfound : c.generated? es =
        let keys := keysOf (unresolved (cells es))
        answered? (answerFor keys (g.all (itemsOf keys)).results) := by
      unfold Compiler.generated?
      rw [hg]
      rfl
    dsimp only
    rw [happend, updatesOf_settled, hfound, ← updatesOf_unresolved]

lemma filter_cells (es : List Entry) (code : String) (col : Column) :
    (cells es).filter (fun x => x.code = code ∧ x.column = col) =
      (es.filter (·.code = code)).filterMap fun e =>
        (e.rate col).text.map fun text => ⟨code, col, text, e.unit⟩ := by
  induction es with
  | nil => rfl
  | cons e es ih =>
    have hcells : cells (e :: es) = cellsOf e ++ cells es := List.flatMap_cons
    rw [hcells, List.filter_append, ih]
    have hown : (cellsOf e).filter (fun x => x.code = code ∧ x.column = col) =
        if e.code = code then ((e.rate col).text.map fun text => ⟨code, col, text, e.unit⟩).toList
        else [] := by
      unfold cellsOf Column.all
      cases col <;> cases hg : (e.rate .general).text <;> cases ho : (e.rate .other).text <;>
        by_cases hc : e.code = code <;> simp [hg, ho, hc]
    rw [hown]
    by_cases hc : e.code = code
    · rw [if_pos hc, List.filter_cons_of_pos (by simpa using hc), List.filterMap_cons]
      cases (e.rate col).text <;> rfl
    · rw [if_neg hc, List.filter_cons_of_neg (by simpa using hc)]
      rfl

lemma filter_updatesBy (now : Option Instant) (found : String → Option String → Option Compiled)
    (es : List Entry) (code : String) (col : Column) :
    (updatesBy now found (cells es)).filter (fun u => u.code = code ∧ u.column = col) =
      ((es.filter (·.code = code)).filterMap (inColumn found col)).map
        fun f => ⟨code, col, f, now⟩ := by
  have hfilter : (updatesBy now found (cells es)).filter
      (fun u => u.code = code ∧ u.column = col) =
      updatesBy now found ((cells es).filter fun x => x.code = code ∧ x.column = col) := by
    unfold updatesBy
    rw [List.filter_filterMap, List.filterMap_filter]
    refine List.filterMap_congr fun x _ => ?_
    cases found x.text x.unit with
    | none => simp
    | some f => by_cases h : x.code = code ∧ x.column = col <;> simp [h, Option.filter]
  rw [hfilter, filter_cells]
  unfold updatesBy inColumn
  rw [List.filterMap_filterMap, List.map_filterMap]
  refine List.filterMap_congr fun e _ => ?_
  cases (e.rate col).text <;> rfl

/-! ### Whose formulas they are -/

lemma eq_of_gated {f f' : Compiled} (h : gated f = .ok f') :
    f' = f ∧ Formula.refusal? f.formula = none := by
  unfold gated at h
  split at h
  next hr => cases h; exact ⟨rfl, hr⟩
  next => cases h

lemma method_compile {text : String} {unit : Option String} {f : Compiled}
    (h : Rate.compile text unit = .compiled f) : f.method = .pattern := by
  unfold Rate.compile at h
  split_ifs at h
  · cases h; rfl
  · dsimp only at h
    split at h
    next s _ =>
      rcases s.compile_cases with ⟨-, hw⟩ | ⟨x, -, hw⟩ <;> rw [hw] at h <;> cases h
      rfl
    next => cases h

lemma exists_of_known? {text : String} {unit : Option String} {f : Compiled}
    (h : known? text unit = some f) :
    Rate.compile text unit = .compiled f ∧ Formula.refusal? f.formula = none := by
  unfold known? at h
  split at h
  next f' hc =>
    obtain ⟨rfl, hr⟩ := eq_of_gated (toOption_eq_some h)
    exact ⟨hc, hr⟩
  next => cases h

/-- What is generated is a result of the generator for the items of the pass. -/
lemma exists_of_generated? {c : Compiler} {es : List Entry} {text : String} {unit : Option String}
    {f : Compiled} (h : c.generated? es text unit = some f) :
    ∃ g, c.generator = some g ∧ Formula.Accepted f.formula ∧ ∃ index,
      (g.all (itemsOf (keysOf (unresolved (cells es))))).results.lookup index = some (.ok f) := by
  unfold Compiler.generated? at h
  split at h
  · obtain ⟨g, hg, h⟩ := Option.bind_eq_some_iff.mp h
    replace h := toOption_eq_some h
    unfold answerFor at h
    split at h
    next r hl =>
      obtain ⟨f', rfl, h⟩ := bind_eq_ok.mp h
      obtain ⟨rfl, hr⟩ := eq_of_gated h
      exact ⟨g, hg, hr, _, hl⟩
    · cases h
  · cases h

lemma of_generated? {P : Compiled → Prop} (hP : Readable P) {c : Compiler} {es : List Entry}
    {text : String} {unit : Option String} {f : Compiled}
    (h : c.generated? es text unit = some f) : P f ∧ Formula.refusal? f.formula = none := by
  obtain ⟨g, -, hr, index, hl⟩ := exists_of_generated? h
  exact ⟨hP.all g _ _ _ (mem_of_lookup_eq_some hl), hr⟩

lemma ne_of_inColumn {c : Compiler} {es : List Entry} {col : Column} {e a : Entry} {f g : Compiled}
    (hf : inColumn known? col e = some f) (hg : inColumn (c.generated? es) col a = some g) :
    f ≠ g := by
  obtain ⟨text, -, hf⟩ := Option.bind_eq_some_iff.mp hf
  obtain ⟨text', -, hg⟩ := Option.bind_eq_some_iff.mp hg
  have hpattern := method_compile (exists_of_known? hf).1
  have hai := (of_generated? readable_discounted hg).1.1
  rintro rfl
  rw [hpattern] at hai
  cases hai

lemma inColumn_outcome? (c : Compiler) (es : List Entry) (col : Column) (e : Entry) :
    inColumn (c.outcome? es) col e =
      (inColumn known? col e).or (inColumn (c.generated? es) col e) := by
  unfold inColumn Compiler.outcome?
  cases (e.rate col).text <;> rfl

/-- The generator is not asked for what the grammar knows. -/
lemma inColumn_known?_of_generated? {c : Compiler} {es : List Entry} {col : Column} {e : Entry}
    {g : Compiled} (h : inColumn (c.generated? es) col e = some g) :
    inColumn known? col e = none := by
  obtain ⟨text, htext, h⟩ := Option.bind_eq_some_iff.mp h
  unfold inColumn
  rw [htext, Option.bind_some]
  unfold Compiler.generated? at h
  unfold known?
  split at h
  next hr => rw [hr]
  next => cases h

end Tariff.Compilation
