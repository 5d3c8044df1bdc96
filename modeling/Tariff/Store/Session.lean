import Tariff.Store.Live
import Tariff.Synthesis.Synthesizer

/-!
A store in use. It is asked for entries by their codes, and written to by one action after the
other, some of which fail. A synthesis reads a copy of the entries and sends its batches to the
store itself. A record is kept of what came of each batch.
-/

namespace Tariff

def Sink.recorded {σ ε : Type} (sink : Sink σ ε) : Sink (σ × List (Except ε Unit)) ε := fun b =>
  ExceptT.mk fun (s, record) =>
    let (r, t) := Sink.outcome (sink b) s
    (r, t, record ++ [r])

namespace LiveStore

/-- The entry at the place that the index tells for a code, if it tells one. A place beyond the
entries is a fault. -/
def find (s : LiveStore) (code : String) : Except Nat (Option Entry) :=
  match s.places.lookup code with
  | none => .ok none
  | some i =>
    match s.entries[i]? with
    | some e => .ok (some e)
    | none => .error i

/-- Synthesizes all entries as they are now, and writes each batch as soon as it is full. -/
def synthesizeBy (z : Synthesizer) (clock : Clock) : Write Synthesis.Stats := do
  z.run clock (← get).entries writeBatch

inductive Action where
  | applyFormulas (us : List FormulaUpdate)
  | writeBatch (us : List EntryUpdate)
  | synthesize (z : Synthesizer) (clock : Clock)

/-- The store that an action leaves, whether it succeeds or fails. -/
def act (s : LiveStore) : Action → LiveStore
  | .applyFormulas us => (s.perform (applyFormulas us)).2
  | .writeBatch us => (s.perform (writeBatch us)).2
  | .synthesize z clock => (s.perform (synthesizeBy z clock)).2

/-- What came of each batch that an action had written, in order. -/
def record (s : LiveStore) : Action → List (Except StoreError Unit)
  | .applyFormulas _ => []
  | .writeBatch us => [(s.perform (writeBatch us)).1]
  | .synthesize z clock =>
    (Sink.outcome (z.run clock s.entries (Sink.recorded writeBatch)) (s, [])).2.2

def acts (s : LiveStore) (as : List Action) : LiveStore := as.foldl act s

def records (s : LiveStore) : List Action → List (Except StoreError Unit)
  | [] => []
  | a :: as => s.record a ++ (s.act a).records as

end LiveStore

end Tariff
