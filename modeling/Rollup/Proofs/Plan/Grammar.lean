import Mathlib
import Rollup.Number.Double
import Rollup.Number.Numeral
import Rollup.Plan
import Rollup.Registry
import Rollup.Token

namespace Rollup

namespace Lexeme

def name (s : String) : Lexeme := ⟨.name, s⟩

def integer (digits : String) : Lexeme := ⟨.integer, digits⟩

def leftBracket : Lexeme := ⟨.leftBracket, "("⟩

def rightBracket : Lexeme := ⟨.rightBracket, ")"⟩

def comma : Lexeme := ⟨.comma, ","⟩

def dollar : Lexeme := ⟨.dollar, "$"⟩

end Lexeme

namespace Grammar

def number (digits : String) : Nat := digitsValue digits.toList

inductive IsUnit : List Lexeme → TimeUnit → Prop
  | plain : s ∈ u.names → IsUnit [.name s] u
  | comma : s ∈ u.names → IsUnit [.comma, .name s] u

inductive IsInterval : List Lexeme → Interval → Prop
  | mk : number s < 2 ^ 64 → IsUnit ls u → IsInterval (.integer s :: ls) ⟨.ofNat (number s), u⟩

inductive IsFields : List Lexeme → List String → Prop
  | nil : IsFields [] []
  | cons : IsFields ls names → IsFields (.comma :: .name s :: ls) (s :: names)

inductive IsArguments : Kind → List Lexeme → Plan → Prop
  | max : IsArguments .max [] .max
  | min : IsArguments .min [] .min
  | sum : IsInterval ls i → IsArguments .sum ls (.sum i)
  | avg : IsInterval ls i → IsArguments .avg ls (.avg i)
  | percentile : number s ≤ 100 → IsInterval ls i →
      IsArguments .percentile (.integer s :: .comma :: ls) (.percentile (.ofNat (number s)) i)
  | correl : IsArguments .correl [.dollar, .name s] (.correl s)
  | extract : IsFields ls names →
      IsArguments (.extract target) (.name s :: ls) (.extract target (s :: names))
  | flag : IsArguments .flag [] .flag
  | gaugeFp : IsArguments .gaugeFp [] (.gaugeFp none)
  | gaugeInt : IsArguments .gaugeInt [] (.gaugeInt none)
  | rangedGaugeFp : number s < 2 ^ 63 → number t < 2 ^ 63 →
      IsArguments .rangedGaugeFp [.integer s, .comma, .integer t]
        (.gaugeFp (some ⟨Double.ofNat (number s), Double.ofNat (number t)⟩))
  | rangedGaugeInt : number s < 2 ^ 63 → number t < 2 ^ 63 →
      IsArguments .rangedGaugeInt [.integer s, .comma, .integer t]
        (.gaugeInt (some ⟨.ofNat (number s), .ofNat (number t)⟩))

inductive IsCall : Kind → List Lexeme → Plan → Prop
  | mk : IsArguments k ls p → IsCall k (.leftBracket :: (ls ++ [.rightBracket])) p

inductive IsExpression (r : Registry) : List Lexeme → Expression → Prop
  | plan : r.find? s = some k → IsCall k ls p → IsExpression r (.name s :: ls) (.plan p)
  | integer : number s < 2 ^ 64 → IsExpression r [.integer s] (.integer (.ofNat (number s)))
  | operand : IsExpression r [.dollar, .name s] (.operand s)

/-- A formula: the name of a function, and its arguments in brackets. -/
inductive IsFormula : List Lexeme → Plan → Prop
  | mk : IsCall k ls p → IsFormula (.name k.name :: ls) p

end Grammar

end Rollup
