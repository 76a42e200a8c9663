import Rollup.Number.Double

namespace Rollup

structure Cell where
  value : Float

def Cell.update (c : Cell) (f : Float → Float) : Float × Cell := (f c.value, ⟨f c.value⟩)

inductive Side
  | max
  | min
  deriving DecidableEq, Repr

def Side.pick : Side → Float → Float → Float
  | max => Double.max
  | min => Double.min

inductive Seed
  /-- The smallest positive double for the largest sample, and the largest double for the smallest
  one. -/
  | legacy
  | infinite
  deriving DecidableEq, Repr

def Seed.value : Seed → Side → Float
  | legacy, .max => Double.smallest
  | legacy, .min => Double.largest
  | infinite, .max => -Double.infinity
  | infinite, .min => Double.infinity

structure Extremum where
  side : Side
  seed : Float
  current : Cell

namespace Extremum

def start (side : Side) (seed : Seed) : Extremum := ⟨side, seed.value side, ⟨seed.value side⟩⟩

def reset (e : Extremum) : Extremum := { e with current := ⟨e.seed⟩ }

def add (e : Extremum) (x : Float) : Float × Extremum :=
  let (y, current) := e.current.update fun c => e.side.pick c x
  (y, { e with current })

end Extremum

end Rollup
