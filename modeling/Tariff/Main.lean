import Std.Time.DateTime.Timestamp
import Tariff.CommandLine.Help
import Tariff.CommandLine.Run

/-!
The program. It reads the file that a command names, runs the command, and does what the run says.
-/

namespace Tariff.CommandLine

open Generation (Provider)

/-- The endpoint is out of reach; every exchange with it fails. -/
def unreachable (c : Generation.Messages.Client) : Provider := fun _ r =>
  ⟨0, c.complete (fun _ => .error "no connection") (fun _ => "") r⟩

def readText (handle : IO.FS.Handle) : IO Store.File := do
  try
    let bytes ← handle.readBinToEnd
    return ((String.fromUTF8? bytes).map Store.File.text).getD (.locked "not a text")
  catch e => return .locked (toString e)

def readFile (path : String) : IO Store.File := do
  try readText (← IO.FS.Handle.mk path .read)
  catch _ => return .missing

def elapsedText (milliseconds : Nat) : String :=
  Decimal.fixed 1 (Decimal.ofScaled milliseconds (-3))

/-- Does one thing; tells how the run ends if it cannot be done. -/
def perform (start : Nat) (a : Action) : IO (Option Ending) := do
  try
    match a with
    | .print text => IO.print text
    | .tell text => IO.eprintln text
    | .tellTimed text =>
      IO.eprintln (text ++ " in " ++ elapsedText ((← IO.monoMsNow) - start) ++ "s")
    | .save path store => IO.FS.writeFile path store.render
    | .export path rows =>
      IO.FS.writeFile path (Json.pretty (.array (rows.map fun r => .array (r.map (·.toJson)))))
    return none
  catch e => return some (a.failed (toString e))

def performAll (start : Nat) (ending : Ending) : List Action → IO Ending
  | [] => return ending
  | a :: rest => do
    match ← perform start a with
    | some failed => return failed
    | none => performAll start ending rest

/-- The time, which the clock tells in nanoseconds since the start of 1970. -/
def instantNow : IO Instant := do
  let t := (← Std.Time.Timestamp.now).val
  return ⟨t.second.val, t.nano.val.toNat⟩

def environment : IO Environment :=
  sources.filterMapM fun name => do return (← IO.getEnv name).map fun value => (name, value)

def runCommand (c : Command) : IO UInt32 := do
  let start ← IO.monoMsNow
  let file ← match c.input? with
    | some path => readFile path
    | none => pure .missing
  let run := c.run ⟨← instantNow, unreachable, fun _ => "not a JSON value"⟩ file
  let ending ← performAll start run.ending run.actions
  IO.eprint ending.message
  return ending.exitCode.toUInt32

end Tariff.CommandLine

open Tariff.CommandLine in
def main (args : List String) : IO UInt32 := do
  let env ← environment
  match Line.read env args with
  | .version =>
    IO.print versionText
    return 0
  | .help topic =>
    IO.print (topic.text env)
    return 0
  | .misuse =>
    IO.eprint usageText
    return 2
  | .command c => runCommand c
