import Rollup.Json.Printer
import Rollup.Value.Text

/-!
Values as JSON and JSON as values.

Writing keeps the numbers that JSON has and makes texts of the others; reading takes an array only
if it holds booleans or numbers alone, and numbers that are not all integers of 64 bits become
doubles.
-/

namespace Rollup

inductive ConversionError
  | mixedElement (element : Json)
  | notEnvelope
  | operandsNotObject

def ConversionError.message : ConversionError → String
  | mixedElement j => "mixed array element " ++ j.compact
  | notEnvelope => "expected \x7b\"sample\": .., \"operands\": \x7b..\x7d\x7d"
  | operandsNotObject => "operands must be an object"

namespace Elements

def toJson : Elements → List Json
  | bools l => l.map .bool
  | bytes l => l.map fun n => .ofInt64 n.toInt64
  | shorts l => l.map fun n => .ofInt64 n.toInt64
  | ints l => l.map fun n => .ofInt64 n.toInt64
  | longs l => l.map .ofInt64
  | floats l => l.map fun x => .ofDouble (Double.ofSingle x)
  | doubles l => l.map .ofDouble
  | chars l => l.map fun c => .string c.toString

end Elements

namespace Json

def bool? : Json → Option Bool
  | bool b => some b
  | _ => none

def int64? : Json → Option Int64
  | number (.integer n _) => if n < 0x8000_0000_0000_0000 then some (.ofInt n) else none
  | _ => none

def double? : Json → Option Float
  | number n => some n.toDouble
  | _ => none

def doubles : List Json → Except ConversionError (List Float)
  | [] => .ok []
  | j :: rest =>
    match j.double? with
    | none => .error (.mixedElement j)
    | some x => (x :: ·) <$> doubles rest

/-- Booleans alone, integers of 64 bits alone, or numbers; no elements at all are numbers. -/
def elements (items : List Json) : Except ConversionError Elements :=
  match items.mapM bool?, items.mapM int64? with
  | some (b :: bs), _ => .ok (.bools (b :: bs))
  | _, some (n :: ns) => .ok (.longs (n :: ns))
  | _, _ => .doubles <$> doubles items

end Json

namespace Value

mutual

def toJson : Value → Json
  | null => .null
  | bool b => .bool b
  | byte n => .ofInt64 n.toInt64
  | short n => .ofInt64 n.toInt64
  | int n => .ofInt64 n.toInt64
  | long n => .ofInt64 n
  | float x => .ofDouble (Double.ofSingle x)
  | double x => .ofDouble x
  | char c => .string c.toString
  | string s => .string s
  | date t => .string t.text
  | bigint n => (Json.ofInt? n).getD (.string (toString n))
  | bigdecimal d => .string d.text
  | record _ fields => .object (fieldsToJson fields)
  | array e => .array e.toJson
  | buffer e => .array e.toJson
termination_by structural v => v

def fieldsToJson : Keyed.From Value lo → Keyed.From Json lo
  | .nil => .nil
  | .cons k h v rest => .cons k h (toJson v) (fieldsToJson rest)
termination_by structural r => r

end

def ofNumber : JsonNumber → Value
  | .integer n _ => if n < 0x8000_0000_0000_0000 then long (.ofInt n) else bigint n
  | .double x _ => double x

mutual

def ofJson : Json → Except ConversionError Value
  | .null => .ok null
  | .bool b => .ok (bool b)
  | .number n => .ok (ofNumber n)
  | .string s => .ok (string s)
  | .array items => array <$> Json.elements items
  | .object members => record "object" <$> fieldsOfJson members
termination_by structural j => j

def fieldsOfJson : Keyed.From Json lo → Except ConversionError (Keyed.From Value lo)
  | .nil => .ok .nil
  | .cons k h j rest =>
    match ofJson j with
    | .error e => .error e
    | .ok v => .cons k h v <$> fieldsOfJson rest
termination_by structural r => r

end

end Value

end Rollup
