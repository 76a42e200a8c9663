namespace Rollup

/-- Seconds since the first of January 1970 and the nanoseconds on top. A leap second is the last
second of a minute that goes on for a second more. -/
structure Timestamp where
  seconds : Int
  nanos : Nat
  valid : nanos < 1_000_000_000 ∨ seconds % 60 = 59 ∧ nanos < 2_000_000_000
  deriving DecidableEq, Repr

structure Date where
  year : Int
  month : Nat
  day : Nat
  deriving DecidableEq, Repr

/-- The date that lies `days` after the first of January 1970. Years are counted from March, so that
a leap day is the last day of its year, within cycles of 400 years. -/
def Date.ofDays (days : Int) : Date :=
  let z := days + 719468
  let era := z / 146097
  let dayOfEra := (z % 146097).toNat
  let yearOfEra := (dayOfEra - dayOfEra / 1460 + dayOfEra / 36524 - dayOfEra / 146096) / 365
  let dayOfYear := dayOfEra - (365 * yearOfEra + yearOfEra / 4 - yearOfEra / 100)
  let m := (5 * dayOfYear + 2) / 153
  let month := if m < 10 then m + 3 else m - 9
  { year := era * 400 + yearOfEra + if month ≤ 2 then 1 else 0
    month
    day := dayOfYear - (153 * m + 2) / 5 + 1 }

namespace Timestamp

def padded (width n : Nat) : String :=
  let digits := Nat.toDigits 10 n
  String.ofList (List.replicate (width - digits.length) '0' ++ digits)

def yearText (year : Int) : String :=
  let digits := padded 4 year.natAbs
  if year < 0 then "-" ++ digits else if 9999 < year then "+" ++ digits else digits

def fractionText (nanos : Nat) : String :=
  if nanos = 0 then ""
  else if nanos % 1000000 = 0 then "." ++ padded 3 (nanos / 1000000)
  else if nanos % 1000 = 0 then "." ++ padded 6 (nanos / 1000)
  else "." ++ padded 9 nanos

def text (t : Timestamp) : String :=
  let date := Date.ofDays (t.seconds / 86400)
  let s := (t.seconds % 86400).toNat
  let leap := t.nanos / 1_000_000_000
  s!"{yearText date.year}-{padded 2 date.month}-{padded 2 date.day}" ++
    s!"T{padded 2 (s / 3600)}:{padded 2 (s / 60 % 60)}:{padded 2 (s % 60 + leap)}" ++
    s!"{fractionText (t.nanos % 1_000_000_000)}+00:00"

end Timestamp

end Rollup
