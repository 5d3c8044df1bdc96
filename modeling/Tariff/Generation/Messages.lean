import Tariff.Generation.Failure
import Tariff.Generation.Request
import Tariff.Json.Record
import Tariff.Text.Blank

/-!
A provider behind a messages endpoint. The schema is enforced by making the model call one tool
whose input is the answer. Inputs of tools are objects, so an answer that is an array is wrapped in
one, and unwrapped when it comes.
-/

namespace Tariff.Generation.Messages

open Json (Document)
open Tariff.Text

def defaultModel : String := "claude-sonnet-4-5"

def defaultBase : String := "https://api.anthropic.com"

def version : String := "2023-06-01"

structure Client where
  key : String
  model : String := defaultModel
  base : String := defaultBase
  maxTokens : Nat := 8192

structure Call where
  url : String
  headers : List (String × String)
  body : Json

structure Response where
  status : Nat
  body : String

def asksForArray (schema : Json) : Bool :=
  match schema.field? "type" with
  | some (.string s) => s == "array"
  | _ => false

/-- The schema of the input of the tool: one for an array becomes that of an object with the array
under `items`. -/
def toolSchema (schema : Json) : Json :=
  if asksForArray schema then
    .object [
      ("properties", .object [("items", schema)]),
      ("required", .ofStrings ["items"]),
      ("type", .string "object")]
  else schema

def Client.body (c : Client) (r : Request) : Json := .object [
  ("max_tokens", whole c.maxTokens),
  ("messages", .array [.object [("content", .string r.prompt), ("role", .string "user")]]),
  ("model", .string c.model),
  ("system", .string r.system),
  ("tool_choice", .object [("name", .string r.tool), ("type", .string "tool")]),
  ("tools", .array [.object [
    ("description", .string "Return the compiled rate formula(s)."),
    ("input_schema", toolSchema r.schema),
    ("name", .string r.tool)]])]

/-- The address without slashes at its end. -/
def Client.root (c : Client) : String := String.ofList (dropTail (· == '/') c.base.toList)

def Client.call (c : Client) (r : Request) : Call where
  url := c.root ++ "/v1/messages"
  headers := [("x-api-key", c.key), ("anthropic-version", version),
    ("content-type", "application/json")]
  body := c.body r

/-! ### Answers -/

inductive Block where
  | text (s : String)
  | toolUse (input : Json)
  | other

/-- How deep a block may go: the message and the list around it count. -/
def blockRoom : Nat := Json.nestingLimit - 2

/-- Reads a block: an object, or an array with the type in front and the fields behind it. -/
def Block.ofDocument? (d : Document) : Option Block := do
  let _ ← d.value? blockRoom
  match d with
  | .object fs =>
    let field := fun name => do (← Document.onlyField? fs name)
    match ← (← field "type").string? with
    | "text" => return .text (← (← field "text").string?)
    | "tool_use" => return .toolUse (← (← field "input").value? blockRoom)
    | _ => some .other
  | .array (type :: fields) =>
    match ← type.string?, fields with
    | "text", [d] => return .text (← d.string?)
    | "tool_use", [d] => return .toolUse (← d.value? blockRoom)
    | "text", _ => none
    | "tool_use", _ => none
    | _, [] => some .other
    | _, _ => none
  | _ => none

def blocks? (body : String) : Option (List Block) := do
  match ← (← Document.read? body.toList).allFields? ["content"] with
  | [content] => Document.required? (Document.list? Block.ofDocument?) content
  | _ => none

/-- What a tool was called with, as the schema asked for it. -/
def unwrap (schema input : Json) : Json :=
  if asksForArray schema then (input.field? "items").getD .null else input

def toolInput? (blocks : List Block) : Option Json :=
  blocks.findSome? fun
    | .toolUse input => some input
    | _ => none

def texts (blocks : List Block) : String :=
  String.join (blocks.filterMap fun
    | .text s => some s
    | _ => none)

/-- The answer in a message: the input of the first tool that is called, else its texts. -/
def answer (schema : Json) (blocks : List Block) : String :=
  match toolInput? blocks with
  | some input => (unwrap schema input).compact
  | none => String.ofList (trim (texts blocks).toList)

/-- The answer to a request, where `exchange` carries calls to the endpoint. -/
def Client.complete (c : Client) (exchange : Call → Except String Response)
    (complaint : Complaint) (r : Request) : Except ProviderError String :=
  match exchange (c.call r) with
  | .error reason => .error (.exchange reason)
  | .ok response =>
    if 200 ≤ response.status ∧ response.status < 300 then
      match blocks? response.body with
      | some blocks => .ok (answer r.schema blocks)
      | none => .error (.exchange (complaint response.body))
    else .error (.server response.status response.body)

end Tariff.Generation.Messages
