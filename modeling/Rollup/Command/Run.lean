import Rollup.Json.Parser
import Rollup.Machine
import Rollup.Plan.Parser
import Rollup.Value.Json

/-!
A formula over samples, one JSON value on each line.

A blank line counts as a line and is passed over. The first line that fails ends the run, and then
there are no results.
-/

namespace Rollup

inductive CommandError
  | parse (e : ParseError)
  | eval (line : Nat) (e : EvalError)
  | rejected (line : Nat) (function : Kind) (found : Option TypeTag)
  | json
  | conversion (e : ConversionError)
  | badBinding (text : String)
  | noInput
  | unknownCategory (name : String)

def CommandError.message : CommandError → String
  | parse e => "Parse error: " ++ e.message
  | eval n e => s!"Evaluation error on line {n}: {e.message}"
  | rejected n k t => s!"Line {n}: {k.name} does not accept samples of type {TypeTag.nameOf t}"
  | json => "Invalid JSON"
  | conversion e => "Unsupported input: " ++ e.message
  | badBinding text => s!"Invalid operand binding '{text}', expected name=<json>"
  | noInput => "No input provided. Use --input or pipe samples to stdin."
  | unknownCategory name =>
    s!"Unknown category: '{name}'\nRun 'aggfn docs' to see available categories."

structure RunOptions where
  formula : String
  input : Option String
  operands : List String := []
  withOperands : Bool := false
  config : Config := {}

namespace Run

/-- The lines of a text. A line ends with a line feed, which a carriage return may precede, and what
stands behind the last line feed is one more line unless it is empty. -/
def lines : List Char → List (List Char)
  | [] => []
  | '\r' :: '\n' :: rest => [] :: lines rest
  | c :: rest =>
    if c = '\n' then [] :: lines rest
    else
      match lines rest with
      | [] => [[c]]
      | line :: more => (c :: line) :: more

def readValue (text : String) : Except CommandError Value :=
  match Json.parse? text with
  | none => .error .json
  | some j => (Value.ofJson j).mapError .conversion

/-- A binding is cut at its first `=`, and blanks around its name do not count. -/
def binding (text : String) : Except CommandError (String × Value) :=
  let cs := text.toList
  match Unicode.trim (cs.takeWhile (· != '=')), cs.dropWhile (· != '=') with
  | c :: cs, _ :: json => (String.ofList (c :: cs), ·) <$> readValue (String.ofList json)
  | _, _ => .error (.badBinding text)

def bindAll : Bindings → List String → Except CommandError Bindings
  | b, [] => .ok b
  | b, text :: rest =>
    match binding text with
    | .error e => .error e
    | .ok (name, v) => bindAll (b.bind name v) rest

def bindMembers : Bindings → Keyed.From Json lo → Except ConversionError Bindings
  | b, .nil => .ok b
  | b, .cons name _ j rest =>
    match Value.ofJson j with
    | .error e => .error e
    | .ok v => bindMembers (b.bind name v) rest

/-- The sample of an envelope, and the bindings with the operands of the envelope on top. An
envelope without a sample holds null. -/
def openEnvelope (b : Bindings) (j : Json) : Except ConversionError (Json × Bindings) :=
  match j with
  | .object members =>
    let sample := (members.find? "sample").getD .null
    match members.find? "operands" with
    | none => .ok (sample, b)
    | some (.object operands) => (sample, ·) <$> bindMembers b operands
    | some _ => .error .operandsNotObject
  | _ => .error .notEnvelope

def decode (withOperands : Bool) (b : Bindings) (line : List Char) :
    Except CommandError (Value × Bindings) := do
  let some j := Json.parse? (String.ofList line) | throw .json
  let (j, b) ← if withOperands then (openEnvelope b j).mapError .conversion else pure (j, b)
  let v ← (Value.ofJson j).mapError .conversion
  return (v, b)

def feed (m : Machine) (n : Nat) (v : Value) (b : Bindings) :
    Except CommandError (Json × Machine) :=
  if v.tag?.any (m.kind.accepts 0) then
    match m.eval b.resolver 0 [v] with
    | (.error e, _) => .error (.eval n e)
    | (.ok r, m) => .ok (r.toJson, m)
  else .error (.rejected n m.kind v.tag?)

def results (withOperands : Bool) (b : Bindings) :
    Machine → Nat → List (List Char) → Except CommandError (List Json)
  | _, _, [] => .ok []
  | m, n, line :: rest =>
    if line.all Unicode.isBlank then results withOperands b m (n + 1) rest
    else
      match decode withOperands b line with
      | .error e => .error e
      | .ok (v, operands) =>
        match feed m n v operands with
        | .error e => .error e
        | .ok (j, m) => (j :: ·) <$> results withOperands b m (n + 1) rest

end Run

open Run in
def run (o : RunOptions) : Except CommandError (List Json) := do
  let p ← (Plan.parse o.formula).mapError .parse
  let some input := o.input | throw .noInput
  let b ← bindAll .empty o.operands
  results o.withOperands b (.start p o.config 0) 1 (lines input.toList)

end Rollup
