import Rollup.Json
import Rollup.Number.Numeral

namespace Rollup

def JsonNumber.text : JsonNumber → String
  | integer n _ => toString n
  | double x _ => NumeralStyle.json.double x

namespace Json

def hexDigit (n : Nat) : Char := Nat.digitChar (n % 16)

def escape (c : Char) : List Char :=
  match c with
  | '"' => ['\\', '"']
  | '\\' => ['\\', '\\']
  | '\x08' => ['\\', 'b']
  | '\t' => ['\\', 't']
  | '\n' => ['\\', 'n']
  | '\x0c' => ['\\', 'f']
  | '\r' => ['\\', 'r']
  | c =>
    if c.toNat < 0x20 then ['\\', 'u', '0', '0', hexDigit (c.toNat / 16), hexDigit c.toNat] else [c]

def quote (s : String) : String := "\"" ++ String.ofList (s.toList.flatMap escape) ++ "\""

mutual

def compact : Json → String
  | null => "null"
  | bool b => if b then "true" else "false"
  | number n => n.text
  | string s => quote s
  | array items => "[" ++ ",".intercalate (compactItems items) ++ "]"
  | object members => "\x7b" ++ ",".intercalate (compactMembers members) ++ "\x7d"
termination_by structural j => j

def compactItems : List Json → List String
  | [] => []
  | j :: rest => compact j :: compactItems rest
termination_by structural l => l

def compactMembers : Keyed.From Json lo → List String
  | .nil => []
  | .cons k _ j rest => (quote k ++ ":" ++ compact j) :: compactMembers rest
termination_by structural r => r

end

def block (opening closing : String) (level : Nat) (items : List String) : String :=
  if items.isEmpty then opening ++ closing
  else
    let indent (n : Nat) := "\n" ++ String.ofList (List.replicate (2 * n) ' ')
    opening ++ ",".intercalate (items.map (indent (level + 1) ++ ·)) ++ indent level ++ closing

mutual

def prettyAt : Json → Nat → String
  | null, _ => "null"
  | bool b, _ => if b then "true" else "false"
  | number n, _ => n.text
  | string s, _ => quote s
  | array items, level => block "[" "]" level (prettyItems items (level + 1))
  | object members, level => block "\x7b" "\x7d" level (prettyMembers members (level + 1))
termination_by structural j => j

def prettyItems : List Json → Nat → List String
  | [], _ => []
  | j :: rest, level => prettyAt j level :: prettyItems rest level
termination_by structural l => l

def prettyMembers : Keyed.From Json lo → Nat → List String
  | .nil, _ => []
  | .cons k _ j rest, level => (quote k ++ ": " ++ prettyAt j level) :: prettyMembers rest level
termination_by structural r => r

end

def pretty (j : Json) : String := j.prettyAt 0

end Json

end Rollup
