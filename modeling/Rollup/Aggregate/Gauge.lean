import Rollup.Number.Double
import Rollup.Plan
import Rollup.Value

namespace Rollup

def Bounds.ordered [LT α] [DecidableLT α] (b : Bounds α) : Bounds α :=
  if b.upper < b.lower then ⟨b.upper, b.lower⟩ else b

/-- A gauge of samples in `α` whose mean is taken in `μ`. -/
structure Gauge (α μ : Type) where
  range : Option (Bounds α)
  last : Option α
  min : Option α
  max : Option α
  mean : μ
  count : Nat
  below : Nat
  above : Nat

namespace Gauge

variable {α μ : Type}

def start [Scalar μ] [LT α] [DecidableLT α] (range : Option (Bounds α)) : Gauge α μ :=
  ⟨range.map Bounds.ordered, none, none, none, Scalar.ofCount 0, 0, 0, 0⟩

def clear [Scalar μ] (g : Gauge α μ) : Gauge α μ :=
  { g with
    last := none, min := none, max := none, mean := Scalar.ofCount 0, count := 0,
      below := 0, above := 0 }

def outside [LT α] [DecidableLT α] (g : Gauge α μ) (x : α) : Option Ordering :=
  g.range.bind fun b => if x < b.lower then some .lt else if b.upper < x then some .gt else none

def moved [LT α] [DecidableLT α] (g : Gauge α μ) (x : α) : α :=
  match g.range with
  | none => x
  | some b => if x < b.lower then b.lower else if b.upper < x then b.upper else x

def add [Scalar μ] [LT α] [DecidableLT α] (widen : α → μ) (g : Gauge α μ) (x : α) : Gauge α μ :=
  let y := g.moved x
  { range := g.range
    last := some y
    min := some (match g.min with
      | some m => if y < m then y else m
      | none => y)
    max := some (match g.max with
      | some m => if m < y then y else m
      | none => y)
    mean := g.mean + (widen y - g.mean) / Scalar.ofCount (g.count + 1)
    count := g.count + 1
    below := if g.outside x = some .lt then g.below + 1 else g.below
    above := if g.outside x = some .gt then g.above + 1 else g.above }

def snapshot (name : String) (value : α → Value) (g : Gauge α Float) : Value :=
  let sample (x : Option α) : Value := (x.map value).getD .null
  let fields := Keyed.ofList [
    ("value", sample g.last),
    ("min", sample g.min),
    ("max", sample g.max),
    ("mean", .double (if g.count = 0 then Double.nan else g.mean)),
    ("count", .long (.ofNat g.count))]
  .record name <|
    match g.range with
    | none => fields
    | some b => Keyed.insertAll fields [
        ("lower_bound", value b.lower),
        ("upper_bound", value b.upper),
        ("below_range", .long (.ofNat g.below)),
        ("above_range", .long (.ofNat g.above))]

end Gauge

end Rollup
