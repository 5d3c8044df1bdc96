import Tariff.Decimal.Layout
import Tariff.Formula.Gate

/-!
Why a formula could not be generated. All failures read alike: one phrase, then the cause.
-/

namespace Tariff.Generation

open Tariff.Text

/-- What is said of a text that cannot be read. -/
abbrev Complaint := String → String

inductive ProviderError where
  /-- the exchange failed, or brought no message that could be read -/
  | exchange (reason : String)
  | server (status : Nat) (body : String)
  | other (text : String)
deriving DecidableEq, Repr

def ProviderError.message : ProviderError → String
  | .exchange reason => "HTTP request failed: " ++ reason
  | .server status body => "server returned " ++ toString status ++ ": " ++ body
  | .other text => text

inductive Field where
  | formula
  | vars
  | confidence
deriving DecidableEq, Repr

def Field.name : Field → String
  | .formula => "formula"
  | .vars => "variables"
  | .confidence => "confidence"

inductive Violation where
  | notObject
  | notArray
  | rowNotObject
  | index
  | missing (f : Field)
  | mistyped (f : Field)
  | explanation
  | variableNotText
  | unknownVariable (name : String)
  | confidence (c : Float)
  /-- the variables that the answer lists are not those of its formula -/
  | vars (listed used : List Variable)

def Field.requirement : Field → String
  | .formula => "formula must be a string"
  | .vars => "variables must be an array"
  | .confidence => "confidence must be a number"

def Violation.message : Violation → String
  | .notObject => "expected an object"
  | .notArray => "expected an array"
  | .rowNotObject => "batch row is not an object"
  | .index => "missing or non-integer index"
  | .missing f => "missing " ++ f.name
  | .mistyped f => f.requirement
  | .explanation => "explanation must be a string"
  | .variableNotText => "variables must be strings"
  | .unknownVariable name => "unknown variable " ++ quoted name
  | .confidence c => "confidence " ++ Decimal.plain.render c ++ " outside [0, 1]"
  | .vars listed used =>
    "declared variables " ++ quotedList (listed.map Variable.name)
      ++ " do not match formula variables " ++ quotedList (used.map Variable.name)

inductive Danger where
  | refused (r : Formula.Refusal)
  | unknownName (w : String)
deriving DecidableEq, Repr

def Danger.message : Danger → String
  | .refused r => r.message
  | .unknownName w => "unknown identifier " ++ quoted w

inductive Failure where
  | provider (e : ProviderError)
  /-- no answer within this many milliseconds -/
  | timeout (limit : Nat)
  | emptyAnswer
  /-- the answer, without blanks around it, is no JSON -/
  | malformed (text : String)
  | schema (v : Violation)
  | unsafeFormula (formula : String) (d : Danger)
  | batchTooLarge (size limit : Nat)
  | noProvider

/-- A length of time in the largest unit that it fills. -/
def durationText (milliseconds : Nat) : String :=
  if milliseconds = 0 then "0ns"
  else if milliseconds < 1000 then toString milliseconds ++ "ms"
  else
    let ds := dropTail (· == '0') (Decimal.pointed 3 milliseconds)
    String.ofList (dropTail (· == '.') ds) ++ "s"

def Failure.cause (complaint : Complaint) : Failure → String
  | .provider e => e.message
  | .timeout limit => "no response within " ++ durationText limit
  | .emptyAnswer => "empty response"
  | .malformed text => "malformed response: " ++ complaint text
  | .schema v => "schema violation: " ++ v.message
  | .unsafeFormula formula d => "unsafe formula " ++ quoted formula ++ ": " ++ d.message
  | .batchTooLarge size limit =>
    "batch of " ++ toString size ++ " exceeds limit of " ++ toString limit
  | .noProvider => "no generative provider configured"

def Failure.message (complaint : Complaint) (f : Failure) : String :=
  "formula generation failed: " ++ f.cause complaint

end Tariff.Generation
