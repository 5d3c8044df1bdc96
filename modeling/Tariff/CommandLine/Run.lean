import Tariff.CommandLine.Card
import Tariff.CommandLine.Command
import Tariff.Compilation.Pass
import Tariff.Schedule.Table
import Tariff.Store.Live
import Tariff.Store.Snapshot

/-!
What a command does: the texts that it prints and the files that it writes, in order, and how it
ends. A file that cannot be written ends a run on the spot.
-/

namespace Tariff.CommandLine

/-- One thing that a run does. -/
inductive Action where
  /-- to the standard output -/
  | print (text : String)
  /-- to the standard error, as a line -/
  | tell (text : String)
  /-- likewise, with the time behind it that the run took -/
  | tellTimed (text : String)
  | save (path : String) (store : Store)
  | export (path : String) (rows : List (List Table.Cell))

inductive Ending where
  | done
  | refused
  /-- an error and its causes -/
  | failed (error : String) (causes : List String)
  /-- in the middle of its work -/
  | stopped (f : Formula.Fault)

structure Run where
  actions : List Action
  ending : Ending

/-- The number with which the program ends. -/
def Ending.exitCode : Ending → Nat
  | .done => 0
  | .refused => 1
  | .failed _ _ => 1
  | .stopped _ => 101

/-- Lines after the first are set in as far as the first. -/
def indented (first rest text : String) : String :=
  first ++ String.ofList
    (text.toList.flatMap fun c => if c == '\n' then '\n' :: rest.toList else [c])

def causesText : List String → String
  | [] => ""
  | [c] => "\nCaused by:\n" ++ indented "    " "    " c ++ "\n"
  | cs => "\nCaused by:\n" ++ String.join (cs.mapIdx fun i c =>
      let number := toString i
      indented ("".pushn ' ' (5 - number.length) ++ number ++ ": ") "       " c ++ "\n")

/-- The text of an error: what failed, and why. -/
def Ending.message : Ending → String
  | .failed error causes => "Error: " ++ error ++ "\n" ++ causesText causes
  | .stopped f => f.message ++ "\n"
  | _ => ""

/-- How a run ends when a file cannot be written. -/
def Action.failed (reason : String) : Action → Ending
  | .export path _ => .failed ("writing " ++ path) ["I/O error: " ++ reason, reason]
  | _ => .failed ("I/O error: " ++ reason) [reason]

/-- What a run needs of the world: the time, a provider for each client, and what is said of a text
that is no JSON. -/
structure World where
  now : Instant
  provider : Generation.Messages.Client → Generation.Provider
  complaint : Generation.Complaint

/-- The compiler that the options ask for. A key is needed to use the provider. -/
def ProviderOptions.compiler (o : ProviderOptions) (w : World) : Compilation.Compiler :=
  match o.key with
  | none => ⟨none⟩
  | some key =>
    if o.disabled || key = "" then ⟨none⟩
    else ⟨some {
      provider := w.provider { key := key, model := o.model }
      config := .clamped (o.timeout * 1000) Generation.batchLimit o.concurrency }⟩

def World.failure (w : World) (f : Generation.Failure) : Ending :=
  .failed (f.message w.complaint) (match f with
    | .provider e => [e.message]
    | _ => [])

def Command.input? : Command → Option String
  | .formulas snapshot .. => some snapshot
  | .synthesize snapshot .. => some snapshot
  | .show snapshot _ => some snapshot
  | .export snapshot _ => some snapshot
  | _ => none

def withStore (path : String) (file : Store.File) (f : Store → Run) : Run :=
  match Store.load path file with
  | .ok s => f s
  | .error e => ⟨[], .failed ("loading snapshot " ++ path) (e.message :: e.cause?.toList)⟩

def World.failureLine (w : World) (f : Compilation.CellFailure) : Action :=
  .tell ("  ! " ++ f.cell.code ++ " [" ++ f.cell.column.name ++ "] " ++ Text.quoted f.cell.text
    ++ ": " ++ f.failure.message w.complaint)

def compileStore (w : World) (o : ProviderOptions) (path : String) (s : Store) : Run :=
  let start := Action.tell ("  Compiling rates for " ++ toString s.size ++ " entries")
  match (o.compiler w).pass (some w.now) s.entries with
  | .error f => ⟨[start], .stopped f⟩
  | .ok (_, report) =>
    match (LiveStore.ofEntries s.entries).perform (LiveStore.applyFormulas report.updates) with
    | (.error e, _) => ⟨[start], .failed "writing compiled formulas" [e.message]⟩
    | (.ok _, s) => ⟨start :: report.failures.map w.failureLine ++ [
        .save path s.toStore,
        .tellTimed ("  Compiled " ++ toString (report.count .pattern) ++ " pattern + "
          ++ toString (report.count .ai) ++ " generated, " ++ toString report.failures.length
          ++ " failed, " ++ toString report.skipped ++ " empty columns")], .done⟩

def synthesizeStore (w : World) (path : String) (always : Bool) (batchSize workers : Nat)
    (s : Store) : Run :=
  let start := Action.tell ("  Synthesizing adjustments for " ++ toString s.size ++ " entries")
  match (LiveStore.ofEntries s.entries).perform (LiveStore.synthesize w.now batchSize workers) with
  | (.error e, _) => ⟨[start], .failed "writing synthesis batches" [e.message]⟩
  | (.ok st, s) => ⟨start :: (if 0 < st.updated || always then [.save path s.toStore] else []) ++ [
      .tellTimed ("  Processed " ++ toString st.processed ++ " entries: " ++ toString st.updated
        ++ " updated, " ++ toString st.linked ++ " linked, " ++ toString st.unresolved
        ++ " unresolved, " ++ toString st.nonNtrDefaults ++ " non-NTR defaults")], .done⟩

def Command.run (w : World) (file : Store.File) : Command → Run
  | .compile text unit o =>
    match (o.compiler w).compile text unit with
    | .ok (_, .ok c) => ⟨[.print (compiledText text c)], .done⟩
    | .ok (_, .error f) => ⟨[], w.failure f⟩
    | .error f => ⟨[], .stopped f⟩
  | .validate formula =>
    let v := Formula.check formula
    ⟨[.print (verdictText formula v)], if v.refusal.isNone then .done else .refused⟩
  | .eval formula binding =>
    match Formula.refusal? formula with
    | some r => ⟨[], .failed ("invalid formula: " ++ r.message) []⟩
    | none =>
      match Formula.evaluate formula binding with
      | .ok x => ⟨[.print (Decimal.plain.render x ++ "\n")], .done⟩
      | .error e => ⟨[], .failed ("evaluating " ++ Text.quoted formula) [e.message]⟩
  | .formulas snapshot output o =>
    withStore snapshot file (compileStore w o (output.getD snapshot))
  | .synthesize snapshot output batchSize workers =>
    withStore snapshot file
      (synthesizeStore w (output.getD snapshot) output.isSome batchSize workers)
  | .show snapshot code =>
    withStore snapshot file fun s =>
      match s.get? code with
      | some e => ⟨[.print (cardText e)], .done⟩
      | none => ⟨[], .failed ("no entry with code " ++ code) []⟩
  | .export snapshot output =>
    withStore snapshot file fun s => ⟨[.export output (Table.rows s.entries),
      .tell ("  Wrote " ++ toString s.size ++ " rows to " ++ output)], .done⟩

end Tariff.CommandLine
