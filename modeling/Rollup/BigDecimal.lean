import Rollup.Number.Double
import Rollup.Number.Numeral

namespace Rollup

/-- The number `mantissa * 10 ^ -scale`. -/
structure BigDecimal where
  mantissa : Int
  scale : Nat
  mantissa_lt : mantissa.natAbs < 0x1_0000_0000_0000_0000_0000_0000 := by decide
  scale_le : scale ≤ 28 := by decide
  deriving DecidableEq, Repr

namespace BigDecimal

def ofParts? (mantissa : Int) (scale : Nat) : Option BigDecimal :=
  if h : mantissa.natAbs < 0x1_0000_0000_0000_0000_0000_0000 ∧ scale ≤ 28
    then some ⟨mantissa, scale, h.1, h.2⟩
  else none

def same (a b : BigDecimal) : Bool :=
  a.mantissa * Nat.pow 10 b.scale == b.mantissa * Nat.pow 10 a.scale

def text (d : BigDecimal) : String :=
  let digits := NumeralStyle.pointed (Nat.toDigits 10 d.mantissa.natAbs) d.scale
  String.ofList (if d.mantissa < 0 then '-' :: digits else digits)

/-- The magnitude as a double: the integral part and the fraction become doubles on their own, and
their sum is rounded to as many decimals as the scale has. -/
def toDoubleAbs (d : BigDecimal) : Float :=
  let whole := Double.ofNat (d.mantissa.natAbs / Nat.pow 10 d.scale)
  let power := Double.ofNat (Nat.pow 10 d.scale)
  let fraction := Double.ofNat (d.mantissa.natAbs % Nat.pow 10 d.scale) / power
  if d.mantissa.natAbs % Nat.pow 10 d.scale = 0 then whole
  else Double.round ((whole + fraction) * power) / power

def toDouble (d : BigDecimal) : Float :=
  if d.mantissa < 0 then -d.toDoubleAbs else d.toDoubleAbs

end BigDecimal

end Rollup
