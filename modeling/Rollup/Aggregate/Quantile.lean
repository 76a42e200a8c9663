import Rollup.Number.Double

namespace Rollup

structure Estimator where
  quantile : Float
  capacity : Nat
  /-- The samples that are kept, the oldest one first. -/
  samples : List Float

namespace Estimator

/-- A quantile outside of `[0, 1]` is moved to its nearer end, and at least one sample is kept. -/
def start (quantile : Float) (capacity : Nat) : Estimator :=
  ⟨clamp (Double.ofNat 0) (Double.ofNat 1) quantile, max capacity 1, []⟩

def add (e : Estimator) (x : Float) : Estimator :=
  if x.isNaN then e
  else if e.samples.length = e.capacity then { e with samples := e.samples.drop 1 ++ [x] }
  else { e with samples := e.samples ++ [x] }

def clear (e : Estimator) : Estimator := { e with samples := [] }

def sorted (e : Estimator) : List Float :=
  e.samples.mergeSort fun x y => Double.rank x ≤ Double.rank y

def position (e : Estimator) (n : Nat) : Float := e.quantile * Double.ofNat (n - 1)

/-- The whole ranks next to the wanted one. A position that is no number counts as the first
rank. -/
def neighbours (e : Estimator) (n : Nat) : Nat × Nat :=
  let lower := (e.position n).toUInt64.toNat
  (lower, if Double.ofNat lower < e.position n then lower + 1 else lower)

def estimate (e : Estimator) : Float :=
  let n := e.samples.length
  if n = 0 then Double.nan else
    let (lower, upper) := e.neighbours n
    let sorted := e.sorted
    let sample (i : Nat) : Float := (sorted[i]?).getD Double.nan
    if lower = upper then sample lower
    else
      let fraction := e.position n - Double.ofNat lower
      sample lower * (Double.ofNat 1 - fraction) + sample upper * fraction

end Estimator

end Rollup
