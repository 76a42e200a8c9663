/-!
The fewest decimal digits that identify a binary floating-point number.

A number `m * 2 ^ q` stands for all reals that round to it. The digits are looked for on ever finer
decimal grids; on each grid only the two neighbours of the number can be nearest.
-/

namespace Rollup

structure Binary where
  significand : Nat
  exponent : Int
  /-- The gap to the number below is half the gap to the number above. -/
  narrow : Bool
  deriving DecidableEq, Repr

structure Decimal where
  digits : Nat
  exponent : Int
  deriving DecidableEq, Repr

inductive Tie
  | toEven
  | awayFromZero
  deriving DecidableEq, Repr

def compareScaled (a : Nat) (i : Int) (n : Nat) (j : Int) : Ordering :=
  compare (a * Nat.pow 10 i.toNat * Nat.pow 2 (-j).toNat)
    (n * Nat.pow 2 j.toNat * Nat.pow 10 (-i).toNat)

def Decimal.strip (d : Decimal) : Decimal :=
  if h : d.digits ≠ 0 ∧ d.digits % 10 = 0 then
    have : d.digits / 10 < d.digits := by omega
    Decimal.strip ⟨d.digits / 10, d.exponent + 1⟩
  else d
termination_by d.digits

namespace Binary

/-- Whether a decimal lies among the reals that round to the number: the interval between the
midpoints to its two neighbours, ends included exactly if the significand is even. -/
def readsBack (x : Binary) (d : Decimal) : Bool :=
  let low := 4 * x.significand - if x.narrow then 1 else 2
  let high := 4 * x.significand + 2
  let ends := x.significand % 2 == 0
  let toLow := compareScaled d.digits d.exponent low (x.exponent - 2)
  let toHigh := compareScaled d.digits d.exponent high (x.exponent - 2)
  (toLow == .gt || (ends && toLow == .eq)) && (toHigh == .lt || (ends && toHigh == .eq))

def places (x : Binary) : Int :=
  let k := (x.significand.log2 + x.exponent) * 30103 / 100000 + 1
  if compareScaled 1 k x.significand x.exponent == .gt then k else k + 1

def floorOn (x : Binary) (g : Int) : Nat :=
  (x.significand * Nat.pow 2 x.exponent.toNat * Nat.pow 10 (-g).toNat) /
    (Nat.pow 2 (-x.exponent).toNat * Nat.pow 10 g.toNat)

/-- The multiple of `10 ^ g` that reads back as the number and is nearest to it. -/
def onGrid? (x : Binary) (tie : Tie) (g : Int) : Option Decimal :=
  let below : Decimal := ⟨x.floorOn g, g⟩
  let above : Decimal := ⟨x.floorOn g + 1, g⟩
  match x.readsBack below, x.readsBack above with
  | false, false => none
  | true, false => some below
  | false, true => some above
  | true, true =>
    match compareScaled (below.digits + above.digits) g (2 * x.significand) x.exponent, tie with
    | .gt, _ => some below
    | .lt, _ => some above
    | .eq, .awayFromZero => some above
    | .eq, .toEven => some (if below.digits % 2 = 0 then below else above)

def exact (x : Binary) : Decimal :=
  ⟨x.significand * Nat.pow 2 x.exponent.toNat * Nat.pow 5 (-x.exponent).toNat, min x.exponent 0⟩

/-- The decimal of fewest digits that reads back as the number, and of those the nearest. -/
def shortest (x : Binary) (tie : Tie) : Decimal :=
  if x.significand = 0 then ⟨0, 0⟩ else
    ((List.range 17).findSome? fun n => x.onGrid? tie (x.places - 1 - (n : Nat))).getD x.exact
      |>.strip

end Binary

end Rollup
