import Tariff.CommandLine.Signature
import Tariff.Formula.Eval
import Tariff.Generation.Messages

/-!
The commands of the program, and what each of them takes.
-/

namespace Tariff.CommandLine

structure ProviderOptions where
  key : Option String
  model : String
  /-- seconds that an answer is waited for -/
  timeout : Nat
  concurrency : Nat
  disabled : Bool

inductive Command where
  | compile (text : String) (unit : Option String) (provider : ProviderOptions)
  | validate (formula : String)
  | eval (formula : String) (binding : Formula.Binding)
  | formulas (snapshot : String) (output : Option String) (provider : ProviderOptions)
  | synthesize (snapshot : String) (output : Option String) (batchSize workers : Nat)
  | show (snapshot code : String)
  | export (snapshot output : String)

structure Verb where
  name : String
  about : String
  signature : Signature
  /-- the command of complete words -/
  command? : Words → Option Command

/-! ### What the commands take -/

def snapshotOption : Parameter :=
  { name := "snapshot", kind := .path, help := "JSON schedule snapshot", required := true }

def providerParameters : List Parameter := [
  { name := "api-key", kind := .text,
    source := some { name := "ANTHROPIC_API_KEY", secret := true } },
  { name := "model", kind := .text, source := some { name := "DUTYFORM_MODEL" },
    default := some Generation.Messages.defaultModel },
  { name := "timeout-secs", kind := .count, help := "Deadline per generative call",
    source := some { name := "DUTYFORM_AI_TIMEOUT_SECS" }, default := some "30" },
  { name := "concurrency", kind := .count, help := "Generative calls in flight at once",
    source := some { name := "DUTYFORM_AI_CONCURRENCY" }, default := some "4" }]

def noProvider : Flag := ⟨"no-ai", "Deterministic grammar only"⟩

def outputOption : Parameter :=
  { name := "output", kind := .path,
    help := "Write here instead of updating the snapshot in place" }

def unitOption : Parameter :=
  { name := "unit", kind := .text, help := "Unit of quantity, e.g. \"No.\" or \"kg\"" }

def compileSignature : Signature :=
  ⟨[{ name := "text", kind := .text }], unitOption :: providerParameters, [noProvider]⟩

def formulaSignature : Signature := ⟨[{ name := "formula", kind := .text }], [], []⟩

def variableOption (v : Variable) : Parameter :=
  { name := v.name, kind := .number, default := some "0" }

def evalSignature : Signature :=
  { formulaSignature with options := Variable.all.map variableOption }

def formulasSignature : Signature :=
  ⟨[], snapshotOption :: outputOption :: providerParameters, [noProvider]⟩

def synthesizeSignature : Signature where
  operands := []
  options := [snapshotOption, outputOption,
    { name := "batch-size", kind := .count, help := "Entries written per batch",
      default := some "500" },
    { name := "workers", kind := .count, help := "Worker threads for per-entry resolution",
      default := some "1" }]
  flags := []

def showSignature : Signature :=
  ⟨[{ name := "code", kind := .text }], [{ snapshotOption with help := "" }], []⟩

def exportSignature : Signature :=
  ⟨[], [{ snapshotOption with help := "" },
    { name := "output", kind := .path, required := true }], []⟩

/-! ### Commands of words -/

def providerOptions? (sig : Signature) (w : Words) : Option ProviderOptions := do
  return {
    key := sig.value? w "api-key"
    model := ← sig.value? w "model"
    timeout := ← (sig.value? w "timeout-secs").bind count?
    concurrency := ← (sig.value? w "concurrency").bind count?
    disabled := w.flags.contains noProvider.name }

def number? (sig : Signature) (w : Words) (v : Variable) : Option Float :=
  (sig.value? w v.name).bind fun s => Decimal.read? s.toList

def binding? (sig : Signature) (w : Words) : Option Formula.Binding := do
  return ⟨← number? sig w .value, ← number? sig w .weight, ← number? sig w .quantity⟩

def verbs : List Verb := [
  { name := "compile"
    about := "Compile one rate text"
    signature := compileSignature
    command? := fun w => do
      return .compile (← w.operands.head?) (compileSignature.value? w "unit")
        (← providerOptions? compileSignature w) },
  { name := "validate"
    about := "Check a formula against the safety rules"
    signature := formulaSignature
    command? := fun w => w.operands.head?.map .validate },
  { name := "eval"
    about := "Evaluate a formula for given inputs (diagnostics only)"
    signature := evalSignature
    command? := fun w => do return .eval (← w.operands.head?) (← binding? evalSignature w) },
  { name := "formulas"
    about := "Compile general and other rate formulas for every entry in a snapshot"
    signature := formulasSignature
    command? := fun w => do
      return .formulas (← formulasSignature.value? w "snapshot")
        (formulasSignature.value? w "output") (← providerOptions? formulasSignature w) },
  { name := "synthesize"
    about := "Resolve Chapter 99 links and write adjusted formulas"
    signature := synthesizeSignature
    command? := fun w => do
      return .synthesize (← synthesizeSignature.value? w "snapshot")
        (synthesizeSignature.value? w "output")
        (← (synthesizeSignature.value? w "batch-size").bind count?)
        (← (synthesizeSignature.value? w "workers").bind count?) },
  { name := "show"
    about := "Print one entry of a snapshot"
    signature := showSignature
    command? := fun w => do
      return .show (← showSignature.value? w "snapshot") (← w.operands.head?) },
  { name := "export"
    about := "Export formula columns to Parquet"
    signature := exportSignature
    command? := fun w => do
      return .export (← exportSignature.value? w "snapshot")
        (← exportSignature.value? w "output") }]

/-! ### The whole line -/

/-- What help is given on. -/
inductive Topic where
  | program
  | verb (e : Verb)
  /-- help itself -/
  | help

inductive Line where
  | version
  | help (topic : Topic)
  | misuse
  | command (c : Command)

/-- The variables of the environment that matter. -/
def sources : List String :=
  ((verbs.flatMap (·.signature.options)).filterMap fun p => p.source.map (·.name)).eraseDups

def verb? (name : String) : Option Verb := verbs.find? (·.name == name)

def Verb.read (e : Verb) (env : Environment) (words : List String) : Line :=
  match e.signature.read env words with
  | .error .help => .help (.verb e)
  | .error .misuse => .misuse
  | .ok w =>
    match e.command? w with
    | some c => .command c
    | none => .misuse

/-- The topic that the words behind `help` name. -/
def topic? : List String → Option Topic
  | [] => some .program
  | [name] => if name = "help" then some .help else (verb? name).map .verb
  | _ => none

/-- Reads the words of a command line. Of letters behind one mark only the first is looked at. -/
def Line.read (env : Environment) : List String → Line
  | [] => .misuse
  | s :: words =>
    match s.toList with
    | '-' :: 'V' :: _ => .version
    | '-' :: 'h' :: _ => .help .program
    | _ =>
      if s = "--version" then .version
      else if s = "--help" then .help .program
      else if s = "help" then ((topic? words).map .help).getD .misuse
      else ((verb? s).map (·.read env words)).getD .misuse

end Tariff.CommandLine
