import Rollup.Value

namespace Rollup

def Elements.texts : Elements → List String
  | bools l => l.map fun b => if b then "true" else "false"
  | bytes l => l.map fun n => toString n.toInt
  | shorts l => l.map fun n => toString n.toInt
  | ints l => l.map fun n => toString n.toInt
  | longs l => l.map fun n => toString n.toInt
  | floats l => l.map NumeralStyle.plain.single
  | doubles l => l.map NumeralStyle.plain.double
  | chars l => l.map Char.toString

def Elements.text (e : Elements) : String := "[" ++ ", ".intercalate e.texts ++ "]"

namespace Value

mutual

def text : Value → String
  | null => "null"
  | bool b => if b then "true" else "false"
  | byte n => toString n.toInt
  | short n => toString n.toInt
  | int n => toString n.toInt
  | long n => toString n.toInt
  | float x => NumeralStyle.plain.single x
  | double x => NumeralStyle.plain.double x
  | char c => c.toString
  | string s => s
  | date t => t.text
  | bigint n => toString n
  | bigdecimal d => d.text
  | record name fields => name ++ "\x7b" ++ ", ".intercalate (fieldTexts fields) ++ "\x7d"
  | array e => e.text
  | buffer e => e.text
termination_by structural v => v

def fieldTexts : Keyed.From Value lo → List String
  | .nil => []
  | .cons k _ v rest => (k ++ "=" ++ text v) :: fieldTexts rest
termination_by structural r => r

end

end Value

end Rollup
