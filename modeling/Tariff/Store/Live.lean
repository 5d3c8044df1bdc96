import Tariff.Store.Basic

/-!
A store that is written to in place. An index, made once, tells the place of each code. What a
write has changed stays changed if the write fails, so all updates are checked before the first of
them is made.
-/

namespace Tariff

/-- Places by code; the first one for a code is the one that counts. -/
abbrev Places := List (String × Nat)

/-- The index with the codes of more entries, the first of which is at place `i`. -/
def Places.extend (ps : Places) (i : Nat) : List Entry → Places
  | [] => ps
  | e :: es => extend ((e.code, i) :: ps) (i + 1) es

theorem Places.lookup_extend (ps : Places) (i : Nat) (es : List Entry) (code : String) :
    (ps.extend i es).lookup code =
      ((Store.lastPlace? code es).map (· + i)).or (ps.lookup code) := by
  induction es generalizing ps i with
  | nil => rfl
  | cons e es ih =>
    rw [extend, ih, Store.lastPlace?, List.lookup_cons]
    cases Store.lastPlace? code es with
    | some j => simp only [Option.map_some, Option.some_or, Nat.add_right_comm, Nat.add_assoc]
    | none =>
      by_cases h : e.code = code
      · simp [h]
      · have hb : (code == e.code) = false := beq_false_of_ne (Ne.symm h)
        simp [h, hb]

theorem Store.lastPlace?_modify {f : Entry → Entry} (hf : ∀ e, (f e).code = e.code)
    (code : String) (es : List Entry) (i : Nat) :
    lastPlace? code (es.modify i f) = lastPlace? code es := by
  induction es generalizing i with
  | nil => rw [List.modify_nil]
  | cons e es ih =>
    cases i with
    | zero => rw [List.modify_zero_cons, lastPlace?, lastPlace?, hf]
    | succ i => rw [List.modify_succ_cons, lastPlace?, lastPlace?, ih]

/-- Entries with an index that gives, for each code, the last place of the code. -/
structure LiveStore where
  entries : List Entry
  places : Places
  /-- the batches of syntheses written so far -/
  batches : Nat
  exact : ∀ code, places.lookup code = Store.lastPlace? code entries

namespace LiveStore

def ofEntries (entries : List Entry) : LiveStore where
  entries := entries
  places := Places.extend [] 0 entries
  batches := 0
  exact code := by
    rw [Places.lookup_extend, List.lookup_nil, Option.or_none]
    exact Option.map_id_apply

/-- The entries, as they are to be saved. -/
def toStore (s : LiveStore) : Store := ⟨s.entries, s.batches⟩

def change (s : LiveStore) (i : Nat) (f : Entry → Entry) (hf : ∀ e, (f e).code = e.code) :
    LiveStore :=
  { s with
    entries := s.entries.modify i f
    exact := fun code => by rw [Store.lastPlace?_modify hf]; exact s.exact code }

def countBatch (s : LiveStore) : LiveStore := { s with batches := s.batches + 1 }

/-- What a kind of update is checked for and how it is made. -/
structure Kind (υ : Type) where
  code : υ → String
  /-- the formula that has to pass the gate, if there is one -/
  formula : υ → Option String
  apply : Entry → υ → Entry
  code_apply : ∀ e u, (apply e u).code = e.code

def formulas : Kind FormulaUpdate where
  code u := u.code
  formula u := some u.compiled.formula
  apply := Entry.applyFormula
  code_apply e u := by
    unfold Entry.applyFormula
    cases u.column <;> rfl

def syntheses : Kind EntryUpdate where
  code u := u.code
  formula u := u.adjusted
  apply := Entry.applySynthesis
  code_apply _ _ := rfl

/-- A write: it brings something or is refused, and leaves a store in either case. -/
abbrev Write (α : Type) := ExceptT StoreError (StateM LiveStore) α

/-- What comes of a write, and the store that it leaves. -/
def perform {α : Type} (s : LiveStore) (w : Write α) : Except StoreError α × LiveStore :=
  w.run.run s

/-- Where an update goes, if its formula passes the gate and its code names an entry. -/
def target (code : String) (formula : Option String) : Write Nat := do
  match formula.bind Formula.refusal? with
  | some r => throw (.invalidFormula code r)
  | none =>
    match (← get).places.lookup code with
    | some i => return i
    | none => throw (.unknownCode code)

/-- Makes updates in order, once a place is found for each. -/
def writeAll {υ : Type} (k : Kind υ) (us : List υ) : Write Unit := do
  let targets ← us.mapM fun u => target (k.code u) (k.formula u)
  forM (targets.zip us) fun (i, u) => modify (·.change i (k.apply · u) (k.code_apply · u))

def applyFormulas (us : List FormulaUpdate) : Write Nat := do
  writeAll formulas us
  return us.length

def writeBatch (us : List EntryUpdate) : Write Unit := do
  writeAll syntheses us
  modify countBatch

def synthesize (now : Instant) (batchSize workers : Nat) : Write Synthesis.Stats := do
  let plan := Synthesis.plan now workers (← get).entries
  forM (Synthesis.batches batchSize plan) writeBatch
  return Synthesis.stats plan

end LiveStore

end Tariff
