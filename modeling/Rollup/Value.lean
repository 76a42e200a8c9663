import Rollup.BigDecimal
import Rollup.Keyed
import Rollup.Timestamp
import Rollup.TypeTag

namespace Rollup

inductive Elements
  | bools (items : List Bool)
  | bytes (items : List Int8)
  | shorts (items : List Int16)
  | ints (items : List Int32)
  | longs (items : List Int64)
  | floats (items : List Float32)
  | doubles (items : List Float)
  | chars (items : List Char)

inductive Value
  | null
  | bool (b : Bool)
  | byte (n : Int8)
  | short (n : Int16)
  | int (n : Int32)
  | long (n : Int64)
  | float (x : Float32)
  | double (x : Float)
  | char (c : Char)
  | string (s : String)
  | date (t : Timestamp)
  | bigint (n : Int)
  | bigdecimal (d : BigDecimal)
  | record (name : String) (fields : Keyed.From Value none)
  | array (items : Elements)
  | buffer (items : Elements)

namespace Elements

def kind : Elements → PrimitiveKind
  | bools _ => .bool
  | bytes _ => .byte
  | shorts _ => .short
  | ints _ => .int
  | longs _ => .long
  | floats _ => .float
  | doubles _ => .double
  | chars _ => .char

def values : Elements → List Value
  | bools l => l.map .bool
  | bytes l => l.map .byte
  | shorts l => l.map .short
  | ints l => l.map .int
  | longs l => l.map .long
  | floats l => l.map .float
  | doubles l => l.map .double
  | chars l => l.map .char

def size (e : Elements) : Nat := e.values.length

/-- Element by element; doubles and floats compare as numbers. -/
def same : Elements → Elements → Bool
  | bools l, bools r => l == r
  | bytes l, bytes r => l == r
  | shorts l, shorts r => l == r
  | ints l, ints r => l == r
  | longs l, longs r => l == r
  | floats l, floats r => l == r
  | doubles l, doubles r => l == r
  | chars l, chars r => l == r
  | _, _ => false

end Elements

namespace Value

def tag? : Value → Option TypeTag
  | null => none
  | bool _ => some .bool
  | byte _ => some .byte
  | short _ => some .short
  | int _ => some .int
  | long _ => some .long
  | float _ => some .float
  | double _ => some .double
  | char _ => some .char
  | string _ => some .string
  | date _ => some .date
  | bigint _ => some .bigint
  | bigdecimal _ => some .bigdecimal
  | record _ _ => some .composite
  | array e => some (.array e.kind)
  | buffer e => some (.buffer e.kind)

def typeName (v : Value) : String := TypeTag.nameOf v.tag?

def integer? : Value → Option Int
  | byte n => some n.toInt
  | short n => some n.toInt
  | int n => some n.toInt
  | long n => some n.toInt
  | bigint n => some n
  | _ => none

def int64? (v : Value) : Option Int64 :=
  v.integer?.bind fun n => if -0x8000_0000_0000_0000 ≤ n ∧ n < 0x8000_0000_0000_0000
    then some (.ofInt n) else none

def number? : Value → Option Float
  | float x => some (Double.ofSingle x)
  | double x => some x
  | bigdecimal d => some d.toDouble
  | v => v.integer?.map Double.ofInt

def bool? : Value → Option Bool
  | bool b => some b
  | _ => none

def fields? : Value → Option (Keyed Value)
  | record _ fields => some fields
  | _ => none

mutual

/-- Equality: doubles, floats and decimals compare as numbers, and all else by its data. -/
def same : Value → Value → Bool
  | null, null => true
  | bool a, bool b => a == b
  | byte a, byte b => a == b
  | short a, short b => a == b
  | int a, int b => a == b
  | long a, long b => a == b
  | float a, float b => a == b
  | double a, double b => a == b
  | char a, char b => a == b
  | string a, string b => a == b
  | date a, date b => a == b
  | bigint a, bigint b => a == b
  | bigdecimal a, bigdecimal b => a.same b
  | record m a, record n b => m == n && sameFields a b
  | array a, array b => a.same b
  | buffer a, buffer b => a.same b
  | _, _ => false
termination_by structural v => v

def sameFields : Keyed.From Value lo → Keyed.From Value lo' → Bool
  | .nil, .nil => true
  | .cons j _ v r, .cons k _ w s => j == k && same v w && sameFields r s
  | _, _ => false
termination_by structural r => r

end

instance : BEq Value := ⟨same⟩

end Value

structure ElementError where
  expected : PrimitiveKind
  found : Option TypeTag
  index : Nat
  deriving DecidableEq, Repr

def ElementError.message (e : ElementError) : String :=
  s!"array of {e.expected.name} cannot hold element {e.index} of type {TypeTag.nameOf e.found}"

namespace Elements

def pickAll (kind : PrimitiveKind) (pick : Value → Option α) :
    Nat → List Value → Except ElementError (List α)
  | _, [] => .ok []
  | i, v :: vs =>
    match pick v with
    | none => .error ⟨kind, v.tag?, i⟩
    | some a => (a :: ·) <$> pickAll kind pick (i + 1) vs

def ofValues? (kind : PrimitiveKind) (vs : List Value) : Except ElementError Elements :=
  match kind with
  | .bool => .bools <$> pickAll kind (fun | .bool b => some b | _ => none) 0 vs
  | .byte => .bytes <$> pickAll kind (fun | .byte n => some n | _ => none) 0 vs
  | .short => .shorts <$> pickAll kind (fun | .short n => some n | _ => none) 0 vs
  | .int => .ints <$> pickAll kind (fun | .int n => some n | _ => none) 0 vs
  | .long => .longs <$> pickAll kind (fun | .long n => some n | _ => none) 0 vs
  | .float => .floats <$> pickAll kind (fun | .float x => some x | _ => none) 0 vs
  | .double => .doubles <$> pickAll kind (fun | .double x => some x | _ => none) 0 vs
  | .char => .chars <$> pickAll kind (fun | .char c => some c | _ => none) 0 vs

end Elements

end Rollup
