import Rollup.TypeTag

namespace Rollup

inductive Target
  | string
  | int
  | double
  deriving DecidableEq, Repr

def Target.tag : Target → TypeTag
  | string => .string
  | int => .int
  | double => .double

inductive Kind
  | max
  | min
  | sum
  | avg
  | percentile
  | correl
  | extract (target : Target)
  | flag
  | gaugeFp
  | gaugeInt
  | rangedGaugeFp
  | rangedGaugeInt
  deriving DecidableEq, Repr

namespace Kind

def all : List Kind :=
  [max, min, sum, avg, percentile, correl, extract .string, extract .int, extract .double, flag,
    gaugeFp, gaugeInt, rangedGaugeFp, rangedGaugeInt]

def name : Kind → String
  | max => "max"
  | min => "min"
  | sum => "sum"
  | avg => "avg"
  | percentile => "percentile"
  | correl => "correl"
  | extract .string => "extract_string"
  | extract .int => "extract_int"
  | extract .double => "extract_double"
  | flag => "flag"
  | gaugeFp => "gauge_fp"
  | gaugeInt => "gauge_int"
  | rangedGaugeFp => "ranged_gauge_fp"
  | rangedGaugeInt => "ranged_gauge_int"

def returns : Kind → TypeTag
  | max | min | sum | avg | percentile | correl => .double
  | extract target => target.tag
  | flag | gaugeFp | gaugeInt | rangedGaugeFp | rangedGaugeInt => .composite

def operands : Kind → Nat
  | correl => 1
  | _ => 0

/-- Whether an argument may have a type: the sample is argument 0, and the operand of `correl`
argument 1. -/
def accepts (k : Kind) (index : Nat) (t : TypeTag) : Bool :=
  match k with
  | max | min | sum | avg | percentile | gaugeFp | rangedGaugeFp => index == 0 && t.isNumeric
  | correl => index ≤ 1 && t.isNumeric
  | extract _ => index == 0 && t == .composite
  | flag => index == 0 && t == .bool
  | gaugeInt | rangedGaugeInt => index == 0 && t.isIntegral

end Kind

end Rollup
