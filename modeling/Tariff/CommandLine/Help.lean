import Tariff.CommandLine.Command

/-!
The version and the help texts.
-/

namespace Tariff.CommandLine

def programName : String := "dutyform"

def versionText : String := programName ++ " 0.1.0\n"

def lines (ls : List String) : String := String.join (ls.map (· ++ "\n"))

/-- Names and what they stand for, in two columns. -/
def table (rows : List (String × String)) : List String :=
  let width := (rows.map (·.1.length)).foldl max 0
  rows.map fun (a, b) => "  " ++ a ++ "".pushn ' ' (width - a.length) ++ "  " ++ b

def Parameter.valueName (p : Parameter) : String :=
  "<" ++ String.ofList (p.name.toList.map fun c => if c == '-' then '_' else c.toUpper) ++ ">"

/-- The variable of the environment with its value, unless that is a secret. -/
def Source.text (env : Environment) (s : Source) : String :=
  let value := if s.secret then "" else "=" ++ (env.lookup s.name).getD ""
  "[env: " ++ s.name ++ value ++ "]"

def Parameter.row (env : Environment) (p : Parameter) : String × String :=
  ("    --" ++ p.name ++ " " ++ p.valueName,
    " ".intercalate ((if p.help = "" then [] else [p.help])
      ++ (p.source.map (Source.text env)).toList
      ++ (p.default.map fun d => "[default: " ++ d ++ "]").toList))

def Flag.row (f : Flag) : String × String := ("    --" ++ f.name, f.help)

def helpRow : String × String := ("-h, --help", "Print help")

def Verb.usage (e : Verb) : String :=
  let sig := e.signature
  let optional := sig.options.any (!·.required) || !sig.flags.isEmpty
  " ".intercalate (["Usage:", programName, e.name] ++ (if optional then ["[OPTIONS]"] else [])
    ++ (sig.options.filter (·.required)).map (fun p => "--" ++ p.name ++ " " ++ p.valueName)
    ++ sig.operands.map (·.valueName))

def Verb.help (e : Verb) (env : Environment) : String :=
  let sig := e.signature
  let operands := match sig.operands with
    | [] => []
    | ps => "Arguments:" :: table (ps.map fun p => (p.valueName, p.help)) ++ [""]
  lines ([e.about, "", e.usage, ""] ++ operands ++ "Options:" ::
    table (sig.options.map (Parameter.row env) ++ sig.flags.map Flag.row ++ [helpRow]))

def programHelp : String :=
  lines (["Compile tariff rate text into formulas and synthesize Chapter 99 adjustments", "",
    "Usage: " ++ programName ++ " <COMMAND>", "", "Commands:"]
    ++ table (verbs.map (fun e => (e.name, e.about))
      ++ [("help", "Print this message or the help of the given subcommand(s)")])
    ++ ["", "Options:"] ++ table [helpRow, ("-V, --version", "Print version")])

def helpHelp : String :=
  lines (["Print this message or the help of the given subcommand(s)", "",
    "Usage: " ++ programName ++ " help [COMMAND]...", "", "Arguments:"]
    ++ table [("[COMMAND]...", "Print help for the subcommand(s)")])

def Topic.text (env : Environment) : Topic → String
  | .program => programHelp
  | .verb e => e.help env
  | .help => helpHelp

def usageText : String := "Usage: " ++ programName ++ " <COMMAND>\n"

end Tariff.CommandLine
