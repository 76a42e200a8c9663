import Rollup.Keyed
import Rollup.Number.Double

namespace Rollup

inductive JsonNumber
  | integer (n : Int) (fits : -0x8000_0000_0000_0000 ≤ n ∧ n < 0x1_0000_0000_0000_0000)
  | double (x : Float) (finite : x.isFinite = true)

inductive Json
  | null
  | bool (b : Bool)
  | number (n : JsonNumber)
  | string (s : String)
  | array (items : List Json)
  | object (members : Keyed.From Json none)

namespace JsonNumber

def toDouble : JsonNumber → Float
  | integer n _ => Double.ofInt n
  | double x _ => x

end JsonNumber

namespace Json

def ofInt? (n : Int) : Option Json :=
  if h : -0x8000_0000_0000_0000 ≤ n ∧ n < 0x1_0000_0000_0000_0000 then some (.number (.integer n h))
    else none

def ofInt64 (n : Int64) : Json :=
  .number (.integer n.toInt ⟨n.le_toInt, by have := n.toInt_lt; omega⟩)

def ofDouble (x : Float) : Json :=
  if h : x.isFinite = true then .number (.double x h) else .null

end Json

end Rollup
