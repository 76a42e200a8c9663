import Rollup.Number.Double

namespace Rollup

structure Comoments (α : Type) where
  count : Nat
  meanX : α
  meanY : α
  squaresX : α
  squaresY : α
  products : α

namespace Comoments

def start [Scalar α] : Comoments α :=
  let zero : α := Scalar.ofCount 0
  ⟨0, zero, zero, zero, zero, zero⟩

def add [Scalar α] (m : Comoments α) (x y : α) : Comoments α :=
  let n : α := Scalar.ofCount (m.count + 1)
  let dx := x - m.meanX
  let meanX := m.meanX + dx / n
  let dy := y - m.meanY
  let meanY := m.meanY + dy / n
  { count := m.count + 1
    meanX
    meanY
    squaresX := m.squaresX + dx * (x - meanX)
    squaresY := m.squaresY + dy * (y - meanY)
    products := m.products + dx * (y - meanY) }

/-- The correlation, between -1 and 1. There is none before the second pair, and while a coordinate
has not varied. -/
def coefficient? [Scalar α] [BEq α] [LT α] [DecidableLT α] (sqrt : α → α) (m : Comoments α) :
    Option α :=
  let zero : α := Scalar.ofCount 0
  let one : α := Scalar.ofCount 1
  if m.count < 2 || m.squaresX == zero || m.squaresY == zero then none
  else some (clamp (zero - one) one (m.products / sqrt (m.squaresX * m.squaresY)))

def coefficient (m : Comoments Float) : Float := (m.coefficient? Float.sqrt).getD Double.nan

end Comoments

end Rollup
