import Rollup.Interval
import Rollup.Kind
import Rollup.Number.Numeral

namespace Rollup

structure Bounds (α : Type) where
  lower : α
  upper : α
  deriving BEq, DecidableEq, Repr

inductive Plan
  | max
  | min
  | sum (interval : Interval)
  | avg (interval : Interval)
  | percentile (percent : UInt8) (interval : Interval)
  | correl (operand : String)
  | extract (target : Target) (path : List String)
  | flag
  | gaugeFp (range : Option (Bounds Float))
  | gaugeInt (range : Option (Bounds Int64))
  deriving BEq, DecidableEq

namespace Plan

def kind : Plan → Kind
  | max => .max
  | min => .min
  | sum _ => .sum
  | avg _ => .avg
  | percentile _ _ => .percentile
  | correl _ => .correl
  | extract target _ => .extract target
  | flag => .flag
  | gaugeFp none => .gaugeFp
  | gaugeFp (some _) => .rangedGaugeFp
  | gaugeInt none => .gaugeInt
  | gaugeInt (some _) => .rangedGaugeInt

def argumentText : Plan → String
  | max | min | flag | gaugeFp none | gaugeInt none => ""
  | sum i | avg i => i.text
  | percentile p i => s!"{p.toNat}, {i.text}"
  | correl operand => "$" ++ operand
  | extract _ path => ", ".intercalate path
  | gaugeFp (some b) => s!"{NumeralStyle.plain.double b.lower}, {NumeralStyle.plain.double b.upper}"
  | gaugeInt (some b) => s!"{b.lower.toInt}, {b.upper.toInt}"

def text (p : Plan) : String := p.kind.name ++ "(" ++ p.argumentText ++ ")"

end Plan

inductive Expression
  | plan (p : Plan)
  | integer (n : UInt64)
  | operand (name : String)
  deriving BEq, DecidableEq

def Expression.text : Expression → String
  | plan p => p.text
  | integer n => toString n.toNat
  | operand name => "$" ++ name

end Rollup
