namespace Rollup

inductive PrimitiveKind
  | bool
  | byte
  | short
  | int
  | long
  | float
  | double
  | char
  deriving DecidableEq, Repr

inductive TypeTag
  | bool
  | byte
  | short
  | int
  | long
  | float
  | double
  | string
  | date
  | bigint
  | bigdecimal
  | char
  | composite
  | array (kind : PrimitiveKind)
  | buffer (kind : PrimitiveKind)
  deriving DecidableEq, Repr

def PrimitiveKind.tag : PrimitiveKind → TypeTag
  | bool => .bool
  | byte => .byte
  | short => .short
  | int => .int
  | long => .long
  | float => .float
  | double => .double
  | char => .char

def PrimitiveKind.name : PrimitiveKind → String
  | bool => "bool"
  | byte => "byte"
  | short => "short"
  | int => "int"
  | long => "long"
  | float => "float"
  | double => "double"
  | char => "char"

namespace TypeTag

def isIntegral : TypeTag → Bool
  | byte | short | int | long | bigint => true
  | _ => false

def isFloating : TypeTag → Bool
  | float | double | bigdecimal => true
  | _ => false

def isNumeric (t : TypeTag) : Bool := t.isIntegral || t.isFloating

def name : TypeTag → String
  | bool => "bool"
  | byte => "byte"
  | short => "short"
  | int => "int"
  | long => "long"
  | float => "float"
  | double => "double"
  | string => "string"
  | date => "date"
  | bigint => "bigint"
  | bigdecimal => "bigdecimal"
  | char => "char"
  | composite => "composite"
  | array k => k.name ++ "[]"
  | buffer k => "buffer<" ++ k.name ++ ">"

def nameOf : Option TypeTag → String
  | none => "null"
  | some t => t.name

end TypeTag

end Rollup
