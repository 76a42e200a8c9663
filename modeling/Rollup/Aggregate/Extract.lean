import Rollup.Kind
import Rollup.Number.Reading
import Rollup.Unicode.Properties
import Rollup.Value.Text

namespace Rollup

namespace Value

def field? (v : Value) (name : String) : Option Value := v.fields?.bind (·.find? name)

/-- The value at the end of a path, or the first name of the path that leads nowhere. -/
def follow (v : Value) : List String → Except String Value
  | [] => .ok v
  | name :: path =>
    match v.field? name with
    | none => .error name
    | some w => w.follow path

def int32? (n : Int) : Option Int32 :=
  if -0x8000_0000 ≤ n ∧ n < 0x8000_0000 then some (.ofInt n) else none

def readInt? : Value → Option Int32
  | bool b => some (if b then 1 else 0)
  | string s => (Reading.int? (Unicode.trim s.toList)).bind int32?
  | float x => (Double.truncate? (Double.ofSingle x)).bind int32?
  | double x => (Double.truncate? x).bind int32?
  | bigdecimal d => (Double.truncate? d.toDouble).bind int32?
  | v => v.integer?.bind int32?

def readDouble? : Value → Option Float
  | bool b => some (Double.ofNat (if b then 1 else 0))
  | string s => Reading.double? (Unicode.trim s.toList)
  | v => v.number?

end Value

namespace Target

def fallback : Target → Value
  | string => .string ""
  | int => .int 0
  | double => .double Double.nan

def read? (t : Target) (v : Value) : Option Value :=
  match v with
  | .null => some t.fallback
  | v =>
    match t with
    | string => some (.string v.text)
    | int => v.readInt?.map .int
    | double => v.readDouble?.map .double

end Target

end Rollup
