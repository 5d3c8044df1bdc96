import Tariff.Proofs.Store.Atomic

/-!
The formulas that a store holds. Whatever is written to it, in whatever order, and whether it is
refused or not, each formula of an entry is the one that the entry held in the same slot before, or
one that passes the gate.
-/

namespace Tariff

inductive Slot where
  | rate (c : Column)
  | adjusted

def Entry.formulaAt (e : Entry) : Slot → Option String
  | .rate c => (e.rate c).formula
  | .adjusted => e.adjusted

/-- The entry has come from another one, and each of its formulas is the one that was in the same
slot, or passes the gate. -/
structure Entry.VettedFrom (e' e : Entry) : Prop where
  code : e'.code = e.code
  formulas : ∀ slot f, e'.formulaAt slot = some f →
    e.formulaAt slot = some f ∨ Formula.Accepted f

namespace Entry.VettedFrom

variable {e e' e'' : Entry}

lemma refl (e : Entry) : e.VettedFrom e := ⟨rfl, fun _ _ h => .inl h⟩

lemma trans (h' : e''.VettedFrom e') (h : e'.VettedFrom e) : e''.VettedFrom e where
  code := h'.code.trans h.code
  formulas slot f hf := by
    rcases h'.formulas slot f hf with hf | hf
    · exact h.formulas slot f hf
    · exact .inr hf

end Entry.VettedFrom

namespace LiveStore

variable {α β υ : Type} {s t u : LiveStore} {k : Kind υ}

structure VettedFrom (t s : LiveStore) : Prop where
  length : t.entries.length = s.entries.length
  entries : ∀ (i : Nat) e', t.entries[i]? = some e' →
    ∃ e, s.entries[i]? = some e ∧ e'.VettedFrom e

lemma VettedFrom.refl (s : LiveStore) : s.VettedFrom s := ⟨rfl, fun _ e h => ⟨e, h, .refl e⟩⟩

lemma VettedFrom.trans (h' : u.VettedFrom t) (h : t.VettedFrom s) : u.VettedFrom s where
  length := h'.length.trans h.length
  entries i e'' he'' := by
    obtain ⟨e', he', hv'⟩ := h'.entries i e'' he''
    obtain ⟨e, he, hv⟩ := h.entries i e' he'
    exact ⟨e, he, hv'.trans hv⟩

/-! ### Updates -/

/-- An update brings no formula but the one that it is checked for. -/
def Kind.Declares (k : Kind υ) : Prop := ∀ e u slot f, (k.apply e u).formulaAt slot = some f →
  e.formulaAt slot = some f ∨ k.formula u = some f

lemma declares_formulas : formulas.Declares := by
  intro e u slot f h
  cases slot with
  | rate c =>
    have hrate : ((e.applyFormula u).rate c).formula = some f := h
    rw [Entry.rate_applyFormula] at hrate
    split_ifs at hrate with hc
    · exact .inr hrate
    · exact .inl hrate
  | adjusted =>
    have hadjusted : (e.applyFormula u).adjusted = e.adjusted := by
      unfold Entry.applyFormula
      cases u.column <;> rfl
    exact .inl (hadjusted.symm.trans h)

lemma declares_syntheses : syntheses.Declares := by
  intro e u slot f h
  cases slot with
  | rate c => cases c <;> exact .inl h
  | adjusted => exact .inr h

lemma Kind.Declares.vettedFrom (hk : k.Declares) {us : List υ}
    (hus : ∀ u ∈ us, ∀ f, k.formula u = some f → Formula.Accepted f) (e : Entry) :
    (us.foldl k.apply e).VettedFrom e := by
  induction us generalizing e with
  | nil => exact .refl e
  | cons u us ih =>
    rw [List.forall_mem_cons] at hus
    have hu : (k.apply e u).VettedFrom e := {
      code := k.code_apply e u
      formulas := fun slot f hf => (hk e u slot f hf).imp_right (hus.1 f) }
    exact (ih hus.2 _).trans hu

/-! ### Writes -/

/-- The write leaves a vetted store, whatever store it is made to and however it ends. -/
def Write.Vetted (w : Write α) : Prop := ∀ s : LiveStore, (s.perform w).2.VettedFrom s

namespace Write.Vetted

lemma pure (a : α) : Write.Vetted (pure a) := fun s => .refl s

lemma bind {w : Write α} {f : α → Write β} (hw : w.Vetted) (hf : ∀ a, (f a).Vetted) :
    Write.Vetted (w >>= f) := by
  intro s
  have hs := hw s
  rcases h : s.perform w with ⟨r, t⟩
  rw [h] at hs
  cases r with
  | ok a =>
    rw [perform_bind_ok h]
    exact (hf a t).trans hs
  | error e =>
    rw [perform_bind_error h]
    exact hs

lemma get : Write.Vetted get := fun s => .refl s

lemma countBatch : Write.Vetted (modify countBatch) := fun s => ⟨rfl, (VettedFrom.refl s).entries⟩

lemma forM {f : β → Write PUnit} (hf : ∀ b, (f b).Vetted) (bs : List β) :
    Write.Vetted (forM bs f) := by
  induction bs with
  | nil => exact pure _
  | cons b bs ih =>
    rw [List.forM_cons]
    exact (hf b).bind fun _ => ih

/-- All updates are checked before the first is made, so either none is made or all pass. -/
lemma writeAll (hk : k.Declares) (us : List υ) : Write.Vetted (writeAll k us) := by
  intro s
  rcases s.writeAll_spec k us with ⟨e, hw, -⟩ | ⟨hadmits, hw⟩
  · rw [hw]
    exact .refl s
  · rw [hw]
    have hpass : ∀ u ∈ us, ∀ f, k.formula u = some f → Formula.Accepted f := fun u hu f hf =>
      Option.bind_eq_none_iff.mp (hadmits u hu).1 f hf
    refine ⟨by simpa using congrArg List.length (s.map_code_written k us), fun i e' he' => ?_⟩
    rw [getElem?_written hadmits, Option.map_eq_some_iff] at he'
    obtain ⟨e, he, rfl⟩ := he'
    exact ⟨e, he, hk.vettedFrom (fun u hu => hpass u (List.mem_of_mem_filter hu)) e⟩

lemma applyFormulas (us : List FormulaUpdate) : (applyFormulas us).Vetted :=
  (writeAll declares_formulas us).bind fun _ => pure _

lemma writeBatch (us : List EntryUpdate) : (writeBatch us).Vetted :=
  (writeAll declares_syntheses us).bind fun _ => countBatch

lemma synthesize (now : Instant) (batchSize workers : Nat) :
    (synthesize now batchSize workers).Vetted :=
  get.bind fun _ => (forM writeBatch _).bind fun _ => pure _

end Write.Vetted

/-! ### Any calls -/

inductive Call where
  | applyFormulas (us : List FormulaUpdate)
  | writeBatch (us : List EntryUpdate)
  | synthesize (now : Instant) (batchSize workers : Nat)

def after (s : LiveStore) : Call → LiveStore
  | .applyFormulas us => (s.perform (applyFormulas us)).2
  | .writeBatch us => (s.perform (writeBatch us)).2
  | .synthesize now batchSize workers => (s.perform (synthesize now batchSize workers)).2

def afterAll (s : LiveStore) (calls : List Call) : LiveStore := calls.foldl after s

lemma vettedFrom_after (s : LiveStore) (call : Call) : (s.after call).VettedFrom s := by
  cases call with
  | applyFormulas us => exact Write.Vetted.applyFormulas us s
  | writeBatch us => exact Write.Vetted.writeBatch us s
  | synthesize now batchSize workers => exact Write.Vetted.synthesize now batchSize workers s

/-- **Nothing that the gate refuses is ever written**: after any calls each formula of each entry
is the one that the entry held in the same slot before, or passes the gate. -/
theorem held_or_accepted (s : LiveStore) (calls : List Call) :
    (s.afterAll calls).VettedFrom s := by
  induction calls generalizing s with
  | nil => exact .refl s
  | cons call calls ih => exact (ih _).trans (s.vettedFrom_after call)

/-- A formula that was there before stays, refused as it would be, and nothing is built on it. -/
example :
    let heading : Entry := { code := "9903.88.03", general := { text := some "+ 25%" } }
    let e : Entry := {
      code := "0101", general := { formula := some "process.exit(1)" }
      links := some ["9903.88.03"], adjusted := some "(process.exit(1)) + (value * 0.25)" }
    let t := (ofEntries [heading, e]).afterAll
      [.applyFormulas [⟨"0101", .general, ⟨"value; 0", [], 1, .ai⟩, none⟩], .synthesize ⟨0, 0⟩ 1 1]
    t.entries.map (fun e => (e.general.formula, e.adjusted)) =
      [(none, none), (some "process.exit(1)", none)] := by
  decide +kernel

end LiveStore

end Tariff
