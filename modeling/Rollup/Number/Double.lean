namespace Rollup.Double

open Float.Model

def ofInt (n : Int) : Float := .ofModel (.ofInt n)

def ofNat (n : Nat) : Float := ofInt n

def ofScientific (m : Nat) (e : Int) : Float := .ofModel (.ofScientific m e)

def ofSingle (x : Float32) : Float :=
  .ofModel <| .pack <|
    match x.toModel.unpack with
    | .finite s m e _ => .round .binary64 s m e
    | x => x

def nan : Float := .ofBits 0x7ff8000000000000

def infinity : Float := .ofBits 0x7ff0000000000000

def largest : Float := .ofBits 0x7fefffffffffffff

def smallest : Float := .ofBits 1

def truncate? (x : Float) : Option Int :=
  match x.toModel.unpack with
  | .zero _ => some 0
  | .finite s m e _ => some (UnpackedFloat.roundToInt s m e)
  | _ => none

def round (x : Float) : Float :=
  match x.toModel.unpack with
  | .finite s m (.negSucc k) _ =>
    let r := ofNat ((m + Nat.pow 2 k) / Nat.pow 2 (k + 1))
    match s with
    | .positive => r
    | .negative => -r
  | _ => x

def max (x y : Float) : Float := if x < y || x.isNaN then y else x

def min (x y : Float) : Float := if y < x || x.isNaN then y else x

/-- The place of a double in the total order: by value, and `-0` before `0`. -/
def rank (x : Float) : Int :=
  let n := x.toBits.toNat
  if n < 0x8000_0000_0000_0000 then n else 0x7fff_ffff_ffff_ffff - (n : Int)

end Rollup.Double

namespace Rollup

class Scalar (α : Type) extends Add α, Sub α, Mul α, Div α where
  ofCount : Nat → α

-- A type's own arithmetic goes before the arithmetic that it has as a scalar.
attribute [instance (100)] Scalar.toAdd Scalar.toSub Scalar.toMul Scalar.toDiv

def clamp [LT α] [DecidableLT α] (lower upper x : α) : α :=
  if x < lower then lower else if upper < x then upper else x

instance : Scalar Float where
  ofCount := Double.ofNat

end Rollup
