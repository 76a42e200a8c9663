import Rollup.Aggregate.Quantile
import Rollup.Interval

namespace Rollup

structure Window where
  length : Duration
  opened : Nat
  deriving DecidableEq, Repr

namespace Window

def expired (w : Window) (now : Nat) : Bool := w.length.toNanos < now - w.opened

def restart (w : Window) (now : Nat) : Window := { w with opened := now }

/-- Opens a new window if this one has run out, and says whether it did. -/
def roll (w : Window) (now : Nat) : Bool × Window :=
  if w.expired now then (true, w.restart now) else (false, w)

end Window

structure Total where
  window : Window
  sum : Float

namespace Total

def start (length : Duration) (now : Nat) : Total := ⟨⟨length, now⟩, Double.ofNat 0⟩

def reset (t : Total) (now : Nat) : Total := ⟨t.window.restart now, Double.ofNat 0⟩

def add (t : Total) (x : Float) (now : Nat) : Float × Total :=
  let (expired, window) := t.window.roll now
  let sum := (if expired then Double.ofNat 0 else t.sum) + x
  (sum, ⟨window, sum⟩)

end Total

structure Mean where
  window : Window
  sum : Float
  count : Nat

namespace Mean

def start (length : Duration) (now : Nat) : Mean := ⟨⟨length, now⟩, Double.ofNat 0, 0⟩

def reset (m : Mean) (now : Nat) : Mean := ⟨m.window.restart now, Double.ofNat 0, 0⟩

def add (m : Mean) (x : Float) (now : Nat) : Float × Mean :=
  let (expired, window) := m.window.roll now
  let sum := (if expired then Double.ofNat 0 else m.sum) + x
  let count := (if expired then 0 else m.count) + 1
  (sum / Double.ofNat count, ⟨window, sum, count⟩)

end Mean

structure Percentile where
  window : Window
  percent : UInt8
  estimator : Estimator

namespace Percentile

def start (percent : UInt8) (length : Duration) (capacity now : Nat) : Percentile :=
  ⟨⟨length, now⟩, percent, .start (Double.ofNat percent.toNat / Double.ofNat 100) capacity⟩

def reset (p : Percentile) (now : Nat) : Percentile :=
  { p with window := p.window.restart now, estimator := p.estimator.clear }

def add (p : Percentile) (x : Float) (now : Nat) : Float × Percentile :=
  let (expired, window) := p.window.roll now
  let estimator := (if expired then p.estimator.clear else p.estimator).add x
  (estimator.estimate, { p with window, estimator })

end Percentile

end Rollup
