import Rollup.Keyed
import Rollup.Kind
import Rollup.Unicode.Concealed

namespace Rollup

abbrev Registry := Keyed Kind

namespace Registry

def empty : Registry := Keyed.empty

def register (r : Registry) (name : String) (k : Kind) : Registry := Keyed.insert r name k

def find? (r : Registry) (name : String) : Option Kind := Keyed.From.find? name r

def builtin : Registry := Kind.all.foldl (fun r k => register r k.name k) empty

def names (r : Registry) : List String := Keyed.From.keys r

def quoteChar (c : Char) : List Char :=
  match c with
  | '\x00' => ['\\', '0']
  | '\t' => ['\\', 't']
  | '\r' => ['\\', 'r']
  | '\n' => ['\\', 'n']
  | '\\' => ['\\', '\\']
  | '"' => ['\\', '"']
  | c =>
    if Unicode.isConcealed c then ['\\', 'u', '\x7b'] ++ Nat.toDigits 16 c.toNat ++ ['\x7d']
      else [c]

def quote (name : String) : String := "\"" ++ String.ofList (name.toList.flatMap quoteChar) ++ "\""

def listing (r : Registry) : String :=
  "FunctionRegistry \x7b names: [" ++ ", ".intercalate (r.names.map quote) ++ "] \x7d"

end Registry

end Rollup
