import Rollup.Value

namespace Rollup

structure Tally where
  last : Option Bool
  trues : Nat
  falses : Nat
  flips : Nat
  deriving DecidableEq, Repr

namespace Tally

def start : Tally := ⟨none, 0, 0, 0⟩

def clear (_ : Tally) : Tally := start

def add (t : Tally) (b : Bool) : Tally where
  last := some b
  trues := if b then t.trues + 1 else t.trues
  falses := if b then t.falses else t.falses + 1
  flips := if t.last = some !b then t.flips + 1 else t.flips

def ratio (t : Tally) : Float :=
  if t.trues + t.falses = 0 then Double.ofNat 0
  else Double.ofNat t.trues / Double.ofNat (t.trues + t.falses)

def snapshot (t : Tally) : Value :=
  .record "flag" <| Keyed.ofList [
    ("value", (t.last.map Value.bool).getD .null),
    ("true_count", .long (.ofNat t.trues)),
    ("false_count", .long (.ofNat t.falses)),
    ("flips", .long (.ofNat t.flips)),
    ("true_ratio", .double t.ratio)]

end Tally

end Rollup
