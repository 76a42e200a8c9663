import Rollup.Number.Shortest

namespace Rollup

def digitsValue (cs : List Char) : Nat := cs.foldl (fun n c => 10 * n + (c.toNat - '0'.toNat)) 0

structure NumeralStyle where
  tie : Tie
  /-- Whether a number whose leading digit counts `10 ^ e` is written without an exponent. -/
  positional : Int → Bool
  pointZero : Bool

namespace NumeralStyle

def plain : NumeralStyle where
  tie := .awayFromZero
  positional _ := true
  pointZero := false

/-- The style of JSON numbers: from `0.00001` up to sixteen integral digits in full, and otherwise
with a signed exponent. -/
def json : NumeralStyle where
  tie := .toEven
  positional e := -5 ≤ e && e < 16
  pointZero := true

def pointed (digits : List Char) (scale : Nat) : List Char :=
  if scale = 0 then digits
  else if scale < digits.length then
    digits.take (digits.length - scale) ++ '.' :: digits.drop (digits.length - scale)
  else '0' :: '.' :: (List.replicate (scale - digits.length) '0' ++ digits)

def inFull (s : NumeralStyle) (d : Decimal) : List Char :=
  let digits := Nat.toDigits 10 d.digits
  match d.exponent with
  | .ofNat n => digits ++ List.replicate n '0' ++ if s.pointZero then ['.', '0'] else []
  | .negSucc n => pointed digits (n + 1)

def withExponent (digits : List Char) (e : Int) : List Char :=
  let sign := if e < 0 then '-' else '+'
  let mantissa := if digits.length = 1 then digits else pointed digits (digits.length - 1)
  mantissa ++ 'e' :: sign :: Nat.toDigits 10 e.natAbs

def magnitude (s : NumeralStyle) (x : Binary) : List Char :=
  let d := x.shortest s.tie
  let digits := Nat.toDigits 10 d.digits
  let e := d.exponent + digits.length - 1
  if s.positional e then s.inFull d else withExponent digits e

open Float.Model (UnpackedFloat)

def signed : UnpackedFloat.Sign → List Char → List Char
  | .positive, cs => cs
  | .negative, cs => '-' :: cs

def write (s : NumeralStyle) (width : Nat) (least : Int) : UnpackedFloat → String
  | .notANumber => "NaN"
  | .infinity sign => String.ofList (signed sign ['i', 'n', 'f'])
  | .zero sign => String.ofList (signed sign (s.magnitude ⟨0, 0, false⟩))
  | .finite sign m e _ =>
    String.ofList (signed sign (s.magnitude ⟨m, e, m == Nat.pow 2 (width - 1) && e > least⟩))

def double (s : NumeralStyle) (x : Float) : String := s.write 53 (-1074) x.toModel.unpack

def single (s : NumeralStyle) (x : Float32) : String := s.write 24 (-149) x.toModel.unpack

end NumeralStyle

end Rollup
