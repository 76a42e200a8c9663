import Rollup.Number.Double
import Rollup.Number.Numeral

namespace Rollup.Reading

def sign : List Char → Bool × List Char
  | '+' :: rest => (false, rest)
  | '-' :: rest => (true, rest)
  | rest => (false, rest)

def digits? (cs : List Char) : Option Nat :=
  if !cs.isEmpty && cs.all Char.isDigit then some (digitsValue cs) else none

def int? (cs : List Char) : Option Int :=
  let (negative, rest) := sign cs
  (digits? rest).map fun n => if negative then -(n : Int) else n

def exponent? : List Char → Option Int
  | [] => some 0
  | c :: rest => if c = 'e' ∨ c = 'E' then int? rest else none

def decimal? (cs : List Char) : Option Float :=
  let whole := cs.takeWhile Char.isDigit
  let (fraction, rest) :=
    match cs.dropWhile Char.isDigit with
    | '.' :: rest => (rest.takeWhile Char.isDigit, rest.dropWhile Char.isDigit)
    | rest => ([], rest)
  if whole.isEmpty && fraction.isEmpty then none
  else (exponent? rest).map fun e =>
    Double.ofScientific (digitsValue (whole ++ fraction)) (e - fraction.length)

def named? (cs : List Char) : Option Float :=
  match String.ofList (cs.map Char.toLower) with
  | "inf" | "infinity" => some Double.infinity
  | "nan" => some Double.nan
  | _ => none

def double? (cs : List Char) : Option Float :=
  let (negative, rest) := sign cs
  ((named? rest).or (decimal? rest)).map fun x => if negative then -x else x

end Rollup.Reading
