import Tariff.Formula.Gate
import Tariff.Schedule.Record
import Tariff.Synthesis.Run

/-!
A schedule that is held and written to. Entries keep their order; of entries with one code the last
is the one that the code names. A write of several updates is done in full or not at all.
-/

namespace Tariff

inductive StoreError where
  | notFound (path : String)
  | unreadable (reason : String)
  | unknownCode (code : String)
  | invalidFormula (code : String) (r : Formula.Refusal)
deriving DecidableEq, Repr

def StoreError.message : StoreError → String
  | .notFound path => "snapshot not found: " ++ path
  | .unreadable reason => "JSON error: " ++ reason
  | .unknownCode code => "no entry with code " ++ code
  | .invalidFormula code r => "refusing to store invalid formula for " ++ code ++ ": " ++ r.message

/-- What lies behind a message, if that is something else. -/
def StoreError.cause? : StoreError → Option String
  | .unreadable reason => some reason
  | _ => none

structure Store where
  entries : List Entry
  /-- the batches of syntheses written so far -/
  batches : Nat

namespace Store

def ofEntries (entries : List Entry) : Store := ⟨entries, 0⟩

def size (s : Store) : Nat := s.entries.length

def lastPlace? (code : String) : List Entry → Option Nat
  | [] => none
  | e :: es =>
    match lastPlace? code es with
    | some i => some (i + 1)
    | none => if e.code = code then some 0 else none

def place? (s : Store) (code : String) : Option Nat := lastPlace? code s.entries

/-- The entry that a code names. -/
def get? (s : Store) (code : String) : Option Entry := do s.entries[← s.place? code]?

/-! ### Writing -/

/-- Where an update goes, if its formula passes the gate and its code names an entry. -/
def target (s : Store) (code : String) (formula : Option String) : Except StoreError Nat :=
  match formula.bind Formula.refusal? with
  | some r => .error (.invalidFormula code r)
  | none =>
    match s.place? code with
    | some i => .ok i
    | none => .error (.unknownCode code)

/-- The entries with the updates made in order at the places given. -/
def writeAt {υ : Type} (apply : Entry → υ → Entry) (entries : List Entry) (us : List (Nat × υ)) :
    List Entry :=
  us.foldl (fun es (i, u) => es.modify i (apply · u)) entries

def applyFormulas (s : Store) (us : List FormulaUpdate) : Except StoreError Store := do
  let targets ← us.mapM fun u => s.target u.code (some u.compiled.formula)
  return { s with entries := writeAt Entry.applyFormula s.entries (targets.zip us) }

def writeBatch (s : Store) (us : List EntryUpdate) : Except StoreError Store := do
  let targets ← us.mapM fun u => s.target u.code u.adjusted
  return ⟨writeAt Entry.applySynthesis s.entries (targets.zip us), s.batches + 1⟩

def synthesize (s : Store) (now : Instant) (batchSize workers : Nat) :
    Store × Except StoreError Synthesis.Stats :=
  Synthesis.run now batchSize workers s.entries writeBatch s

end Store

end Tariff
