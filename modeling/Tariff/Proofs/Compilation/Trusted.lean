import Tariff.Proofs.Compilation.Pass
import Tariff.Proofs.Generation.Bulk
import Tariff.Proofs.Rate.Safety

/-!
What leaves the compiler. Formulas come from the grammar or from the provider, and from the provider
one by one, in rows of batches, or as second tries. Whichever way a formula came, it is one that can
be trusted, and a generated one is no more certain than an answer to this very pass reports.
-/

namespace Tariff.Compilation

open Tariff.Generation Tariff.Text

/-- A formula that can be trusted, where `reported` are the confidences that were reported for
generated ones. -/
structure Trusted (reported : Float → Prop) (f : Compiled) : Prop where
  accepted : Formula.Accepted f.formula
  names : ∀ r ∈ runsOf Formula.isLetter f.formula.toList, ∃ v : Variable, String.ofList r = v.name
  vars : f.vars = Variable.named f.formula
  unit : 0 ≤ f.confidence ∧ f.confidence ≤ 1
  generated : f.method = .ai →
    ∃ x, reported x ∧ 0 ≤ x ∧ x ≤ 1 ∧ f.confidence = max 0 (x - discount)

def Compiler.Reports (c : Compiler) (calls : List Request) (x : Float) : Prop :=
  ∃ g, c.generator = some g ∧ ∃ j, g.Gives calls j ∧ readConfidence j = .ok x

/-! ### By the grammar -/

lemma unit_confidence (s : Rate.Shape) : 0 ≤ s.confidence ∧ s.confidence ≤ 1 := by
  have hunit : ∀ x ∈ ([1, 0.9, 0.7] : List Float), 0 ≤ x ∧ x ≤ 1 := by decide +kernel
  exact hunit _ (by cases s <;> simp [Rate.Shape.confidence])

lemma trusted_of_grammar {text : String} {unit : Option String} {f : Compiled}
    (h : Rate.compile text unit = .compiled f) (reported : Float → Prop) : Trusted reported f := by
  obtain ⟨s, rfl, hfinite, -⟩ := Rate.exists_shape_of_compile h
  obtain ⟨ha, hvars, -⟩ := Rate.Shape.safe hfinite
  refine ⟨ha, fun r hr => ?_, hvars, unit_confidence s, fun hai => ?_⟩
  · exact (Rate.Shape.knownNames hfinite).of_letters ha hr
  · cases hai

/-! ### By the provider -/

lemma trusted_of_fields {j : Json} {f : Compiled} (h : readFields j = .ok f)
    {reported : Float → Prop} (hr : ∀ x, readConfidence j = .ok x → reported x) :
    Trusted reported f := by
  obtain ⟨ha, hknown, hvars, -, x, hx, hc⟩ := vetted_of_readFields h
  obtain ⟨h0, h1⟩ := unit_of_readConfidence hx
  refine ⟨ha, fun r hr => ?_, hvars, ?_, fun _ => ⟨x, hr x hx, h0, h1, ?_⟩⟩
  · exact (knownNames_of_unknownName? ha hknown).of_letters ha hr
  · rw [hc]
    exact unit_discounted h0 h1
  · rw [hc]
    exact discounted_eq h0 h1

lemma trusted_of_gives {c : Compiler} {g : Generator} (hg : c.generator = some g)
    {calls : List Request} {f : Compiled} (h : ∃ j, g.Gives calls j ∧ readFields j = .ok f) :
    Trusted (c.Reports calls) f := by
  obtain ⟨j, hj, hread⟩ := h
  exact trusted_of_fields hread fun x hx => ⟨g, hg, j, hj, hx⟩

lemma nodup_itemsOf (keys : List Key) : ((itemsOf keys).map (·.index)).Nodup := by
  have hrange : (itemsOf keys).map (·.index) = List.range keys.length := by
    unfold itemsOf
    rw [map_mapIdx]
    exact List.ext_getElem (by simp) (by simp)
  rw [hrange]
  exact List.nodup_range

lemma calls_answer {c : Compiler} {g : Generator} (hg : c.generator = some g)
    (now : Option Instant) (es : List Entry) :
    (c.answer now es).1 = (g.all (itemsOf (keysOf (unresolved (cells es))))).calls := by
  unfold Compiler.answer
  rw [hg]

/-! ### What leaves the compiler -/

lemma trusted_compile {c : Compiler} {text : String} {hint : Option String}
    {calls : List Request} {f : Compiled} (h : c.compile text hint = .ok (calls, .ok f)) :
    Trusted (c.Reports calls) f := by
  unfold Compiler.compile at h
  cases hr : Rate.compile text hint with
  | compiled f' =>
    rw [hr] at h
    obtain ⟨-, hf⟩ := Prod.mk.inj (Except.ok.inj h)
    obtain ⟨rfl, -⟩ := eq_of_gated hf
    exact trusted_of_grammar hr _
  | unresolved normal =>
    rw [hr] at h
    cases hg : c.generator with
    | none =>
      rw [hg] at h
      cases h
    | some g =>
      rw [hg] at h
      obtain ⟨rfl, hf⟩ := Prod.mk.inj (Except.ok.inj h)
      exact trusted_of_gives hg (Generator.gives_of_single rfl hf)
  | stopped =>
    rw [hr] at h
    cases h

lemma trusted_answer {c : Compiler} {now : Option Instant} {es : List Entry} {u : FormulaUpdate}
    (h : u ∈ (c.answer now es).2.updates) : Trusted (c.Reports (c.answer now es).1) u.compiled := by
  rw [updates_answer, List.mem_append] at h
  rcases h with h | h <;> obtain ⟨cell, -, h⟩ := List.mem_filterMap.mp h <;>
    obtain ⟨f, hf, rfl⟩ := Option.map_eq_some_iff.mp h
  · exact trusted_of_grammar (exists_of_known? hf).1 _
  · obtain ⟨g, hg, -, index, hl⟩ := exists_of_generated? hf
    rw [calls_answer hg]
    exact trusted_of_gives hg ((Generator.brings_all g _).gives (nodup_itemsOf _) hl)

/-- **Every formula that leaves the compiler can be trusted**: what comes of a single text, and
every update of a pass that comes to its end, whatever the provider does. -/
theorem compiler_trusted (c : Compiler) :
    (∀ text hint calls f, c.compile text hint = .ok (calls, .ok f) →
      Trusted (c.Reports calls) f) ∧
    ∀ now es calls r, c.pass now es = .ok (calls, r) →
      ∀ u ∈ r.updates, Trusted (c.Reports calls) u.compiled := by
  refine ⟨fun _ _ _ _ => trusted_compile, fun now es calls r h u hu => ?_⟩
  obtain ⟨-, h⟩ := pass_eq_ok_iff.mp h
  obtain ⟨rfl, rfl⟩ := Prod.mk.inj h
  exact trusted_answer hu

/-- Whatever is asked for, the answer is a twentieth of the value. -/
def twentieth : Provider := fun _ _ =>
  ⟨0, .ok "\x7b\"formula\": \"value * 0.05\", \"variables\": [\"value\"], \"confidence\": 0.9\x7d"⟩

def twentiethCompiler : Compiler := ⟨some ⟨twentieth, .default⟩⟩

theorem compiler_trusted_twentieth :
    (∃ calls f, twentiethCompiler.compile "See note 3" none = .ok (calls, .ok f) ∧
      f.method = .ai ∧ Trusted (twentiethCompiler.Reports calls) f) ∧
    let es : List Entry := [{ code := "0101", chapter := "01", general.text := some "See note 3" }]
    ∃ calls r, twentiethCompiler.pass none es = .ok (calls, r) ∧ ∃ u ∈ r.updates,
      u.compiled.method = .ai ∧ Trusted (twentiethCompiler.Reports calls) u.compiled := by
  refine ⟨?_, ?_⟩
  · have h : ((twentiethCompiler.compile "See note 3" none).toOption.bind
        (·.2.toOption)).map (·.method) = some .ai := by
      decide +kernel
    obtain ⟨f, hf, hm⟩ := Option.map_eq_some_iff.mp h
    obtain ⟨⟨calls, r⟩, hp, hr⟩ := Option.bind_eq_some_iff.mp hf
    have hcompile := (toOption_eq_some hp).trans
      (congrArg (fun r => Except.ok (calls, r)) (toOption_eq_some hr))
    exact ⟨calls, f, hcompile, hm, (compiler_trusted _).1 _ _ _ _ hcompile⟩
  · intro es
    have h : (twentiethCompiler.pass none es).toOption.map
        (·.2.updates.map (·.compiled.method)) = some [.ai] := by
      decide +kernel
    obtain ⟨⟨calls, r⟩, hp, hmethods⟩ := Option.map_eq_some_iff.mp h
    obtain ⟨u, us, hu, hm, -⟩ := List.map_eq_cons_iff.mp hmethods
    have hmem : u ∈ r.updates := hu ▸ List.mem_cons_self
    have hpass := toOption_eq_some hp
    exact ⟨calls, r, hpass, u, hmem, hm, (compiler_trusted _).2 none es _ _ hpass u hmem⟩

end Tariff.Compilation
