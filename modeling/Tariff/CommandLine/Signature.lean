import Tariff.Decimal.Reader
import Tariff.Text.Runs

/-!
The words of a command line. A command takes operands, options with values and flags, each option
and flag once. A value stands in the next word or behind an equals sign; after `--` all words are
operands. The environment may stand in for an option that is not given.

Words are read in order, and the first one that is wrong ends the reading.
-/

namespace Tariff.CommandLine

open Tariff.Text (isAsciiDigit)

/-- What a value has to be. -/
inductive Kind where
  | text
  | path
  | number
  | count
deriving DecidableEq, Repr

/-- A number without a sign or with a plus, of 64 bits. -/
def count? (s : String) : Option Nat :=
  let ds := match s.toList with
    | '+' :: ds => ds
    | ds => ds
  let n := Decimal.natOfDigits ds
  if ds.isEmpty || !ds.all isAsciiDigit || Nat.pow 2 64 ≤ n then none else some n

def Kind.accepts : Kind → String → Bool
  | .text, _ => true
  | .path, s => s ≠ ""
  | .number, s => (Decimal.read? s.toList).isSome
  | .count, s => (count? s).isSome

abbrev Environment := List (String × String)

/-- A variable of the environment that may hold the value of an option. -/
structure Source where
  name : String
  /-- its value is not shown -/
  secret : Bool := false

/-- An operand or an option with a value. -/
structure Parameter where
  name : String
  kind : Kind
  help : String := ""
  required : Bool := false
  /-- where the value comes from when it is not given -/
  source : Option Source := none
  /-- the value for want of any other -/
  default : Option String := none

structure Flag where
  name : String
  help : String

/-- What a command takes. Every operand has to be given. -/
structure Signature where
  operands : List Parameter
  options : List Parameter
  flags : List Flag

structure Words where
  operands : List String := []
  values : List (String × String) := []
  flags : List String := []

/-- Why reading ends early: help is asked for, or a word is wrong. -/
inductive Stop where
  | help
  | misuse
deriving DecidableEq, Repr

namespace Signature

def addOperand (sig : Signature) (w : Words) (s : String) : Except Stop Words :=
  match sig.operands[w.operands.length]? with
  | some p =>
    if p.kind.accepts s then .ok { w with operands := w.operands ++ [s] } else .error .misuse
  | none => .error .misuse

def addFlag (w : Words) (name : String) : Except Stop Words :=
  if w.flags.contains name then .error .misuse else .ok { w with flags := name :: w.flags }

def addValue (p : Parameter) (w : Words) (s : String) : Except Stop Words :=
  if (w.values.lookup p.name).isSome || !p.kind.accepts s then .error .misuse
  else .ok { w with values := (p.name, s) :: w.values }

/-- Whether a word is an option or a flag, or looks like one. -/
def isMarked (s : String) : Bool :=
  match s.toList with
  | '-' :: _ :: _ => true
  | _ => false

def nameAndValue (s : List Char) : String × Option String :=
  let name := s.takeWhile (· != '=')
  match s.drop name.length with
  | _ :: value => (String.ofList name, some (String.ofList value))
  | [] => (String.ofList name, none)

/-- A word with two marks: the words read with it, and whether the next word is its value. -/
inductive Marked where
  | complete (w : Words)
  | awaits (p : Parameter)

def readMarked (sig : Signature) (w : Words) (s : List Char) : Except Stop Marked :=
  let (name, value) := nameAndValue s
  match sig.options.find? (·.name == name), value with
  | some p, some v => (addValue p w v).map .complete
  | some p, none => .ok (.awaits p)
  | none, some _ => .error .misuse
  | none, none =>
    if sig.flags.any (·.name == name) then (addFlag w name).map .complete
    else .error (if name = "help" then .help else .misuse)

def readFrom (sig : Signature) (w : Words) : List String → Except Stop Words
  | [] => .ok w
  | s :: rest =>
    match s.toList with
    | ['-', '-'] => rest.foldlM sig.addOperand w
    | '-' :: '-' :: cs => do
      match ← sig.readMarked w cs with
      | .complete w => sig.readFrom w rest
      | .awaits p =>
        match rest with
        | v :: rest => if isMarked v then .error .misuse else sig.readFrom (← addValue p w v) rest
        | [] => .error .misuse
    | '-' :: 'h' :: _ => .error .help
    | '-' :: _ :: _ => .error .misuse
    | _ => do sig.readFrom (← sig.addOperand w s) rest

/-- Takes the value of an option from the environment if it is not given. -/
def supply (env : Environment) (w : Words) (p : Parameter) : Except Stop Words :=
  match w.values.lookup p.name, p.source.bind fun s => env.lookup s.name with
  | none, some v => addValue p w v
  | _, _ => .ok w

def read (sig : Signature) (env : Environment) (words : List String) : Except Stop Words := do
  let w ← sig.options.foldlM (supply env) (← sig.readFrom {} words)
  let complete := w.operands.length == sig.operands.length
    && sig.options.all fun p => !p.required || (w.values.lookup p.name).isSome
  if complete then return w else throw .misuse

/-- The value of an option: the one read, else the one for want of it. -/
def value? (sig : Signature) (w : Words) (name : String) : Option String :=
  w.values.lookup name <|> (sig.options.find? (·.name == name)).bind (·.default)

end Signature

end Tariff.CommandLine
