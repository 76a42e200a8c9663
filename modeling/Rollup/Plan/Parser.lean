import Rollup.Number.Double
import Rollup.Number.Numeral
import Rollup.Plan
import Rollup.Registry
import Rollup.Token.Cursor

/-!
Reading plans from formulas.

Every step reads one token after the other and never looks ahead, so an error leaves the cursor
behind the token that is to blame.
-/

namespace Rollup

inductive ParseError
  | lex (e : LexError)
  | unknownFunction (name : String) (position : Nat)
  | unknownTimeUnit (name : String) (position : Nat)
  | expectedFunction (found : Expression)
  | unexpectedToken (found : Token)
  | integerOutOfRange (literal : String) (position : Nat)
  | percentOutOfRange (literal : String) (position : Nat)
  deriving DecidableEq

def ParseError.message : ParseError → String
  | lex e => e.message
  | unknownFunction n p => s!"unknown function name '{n}' at position {p}"
  | unknownTimeUnit n p => s!"unknown time unit '{n}' at position {p}"
  | expectedFunction e => s!"expected function definition but found expression {e.text}"
  | unexpectedToken t => s!"unexpected token {t.describe} at position {t.position}"
  | integerOutOfRange l p => s!"integer '{l}' at position {p} is out of range"
  | percentOutOfRange l p =>
    s!"invalid argument {l} at position {p}: percentile must be between 0 and 100"

abbrev Parse := EStateM ParseError Cursor

namespace Parse

def ofScan (s : Scan α) : Parse α := fun c =>
  match s c with
  | .ok a c => .ok a c
  | .error e c => .error (.lex e) c

def next : Parse (Option Token) := ofScan Cursor.next

def required (expected : TokenKind) : Parse Token := ofScan (Cursor.required expected)

def expect (expected : TokenKind) : Parse Token := ofScan (Cursor.expect expected)

def integerOf (t : Token) : Parse UInt64 :=
  let n := digitsValue t.text.toList
  if n < 0x1_0000_0000_0000_0000 then pure (.ofNat n)
    else throw (.integerOutOfRange t.text t.position)

def integer : Parse UInt64 := do integerOf (← expect .integer)

def unitOf (t : Token) : Parse TimeUnit :=
  match TimeUnit.ofName? t.text with
  | some u => pure u
  | none => throw (.unknownTimeUnit t.text t.position)

def timeUnit : Parse TimeUnit := do
  let t ← required .name
  match t.kind with
  | .name => unitOf t
  | .comma => unitOf (← expect .name)
  | _ => throw (.unexpectedToken t)

def interval : Parse Interval := do
  let amount ← integer
  return ⟨amount, ← timeUnit⟩

def noParameters : Parse Unit := do
  _ ← expect .leftBracket
  _ ← expect .rightBracket

def intervalParameters : Parse Interval := do
  _ ← expect .leftBracket
  let i ← interval
  _ ← expect .rightBracket
  return i

def percent : Parse UInt8 := do
  let t ← expect .integer
  let n ← integerOf t
  if n ≤ 100 then return n.toUInt8 else throw (.percentOutOfRange t.text t.position)

def percentileParameters : Parse Plan := do
  _ ← expect .leftBracket
  let p ← percent
  _ ← expect .comma
  let i ← interval
  _ ← expect .rightBracket
  return .percentile p i

def correlParameters : Parse Plan := do
  _ ← expect .leftBracket
  _ ← expect .dollar
  let t ← expect .name
  _ ← expect .rightBracket
  return .correl t.text

def moreFields (c : Cursor) : EStateM.Result ParseError Cursor (List String) :=
  match hc : Cursor.required .rightBracket c with
  | .error e c => .error (.lex e) c
  | .ok t d =>
    match t.kind with
    | .rightBracket => .ok [] d
    | .comma =>
      match hd : Cursor.expect .name d with
      | .error e c => .error (.lex e) c
      | .ok field e =>
        have : e.rest.length < c.rest.length :=
          Nat.lt_trans (Cursor.length_lt_of_expect hd) (Cursor.length_lt_of_required hc)
        match moreFields e with
        | .ok fields c => .ok (field.text :: fields) c
        | .error e c => .error e c
    | _ => .error (.unexpectedToken t) d
termination_by c.rest.length

def extractParameters : Parse (List String) := do
  _ ← expect .leftBracket
  let t ← expect .name
  let fields ← moreFields
  return t.text :: fields

def bound : Parse Int64 := do
  let t ← expect .integer
  let n := digitsValue t.text.toList
  if n < 0x8000_0000_0000_0000 then return .ofNat n
    else throw (.integerOutOfRange t.text t.position)

def rangeParameters : Parse (Bounds Int64) := do
  _ ← expect .leftBracket
  let lower ← bound
  _ ← expect .comma
  let upper ← bound
  _ ← expect .rightBracket
  return ⟨lower, upper⟩

def parameters : Kind → Parse Plan
  | .max => do noParameters; return .max
  | .min => do noParameters; return .min
  | .sum => Plan.sum <$> intervalParameters
  | .avg => Plan.avg <$> intervalParameters
  | .percentile => percentileParameters
  | .correl => correlParameters
  | .extract target => Plan.extract target <$> extractParameters
  | .flag => do noParameters; return .flag
  | .gaugeFp => do noParameters; return .gaugeFp none
  | .gaugeInt => do noParameters; return .gaugeInt none
  | .rangedGaugeFp => do
    let b ← rangeParameters
    return .gaugeFp (some ⟨Double.ofInt b.lower.toInt, Double.ofInt b.upper.toInt⟩)
  | .rangedGaugeInt => do
    let b ← rangeParameters
    return .gaugeInt (some b)

def expression (r : Registry) : Parse Expression := do
  let t ← required .name
  match t.kind with
  | .name =>
    match r.find? t.text with
    | some k => Expression.plan <$> parameters k
    | none => throw (.unknownFunction t.text t.position)
  | .integer => Expression.integer <$> integerOf t
  | .dollar => do
    let t ← expect .name
    return .operand t.text
  | _ => throw (.unexpectedToken t)

def formula (r : Registry) : Parse Plan := do
  match ← expression r with
  | .plan p =>
    match ← next with
    | none => return p
    | some t => throw (.unexpectedToken t)
  | e => throw (.expectedFunction e)

end Parse

def Plan.parse (text : String) : Except ParseError Plan :=
  match Parse.formula .builtin (Cursor.start text) with
  | .ok p _ => .ok p
  | .error e _ => .error e

end Rollup
