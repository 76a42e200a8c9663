namespace Rollup

inductive TimeUnit
  | nanoseconds
  | milliseconds
  | seconds
  | minutes
  | hours
  | days
  deriving DecidableEq, Repr

namespace TimeUnit

def all : List TimeUnit := [nanoseconds, milliseconds, seconds, minutes, hours, days]

def symbol : TimeUnit → String
  | nanoseconds => "ns"
  | milliseconds => "ms"
  | seconds => "sec"
  | minutes => "m"
  | hours => "h"
  | days => "d"

def names : TimeUnit → List String
  | nanoseconds => ["ns", "nanos"]
  | milliseconds => ["ms", "millis"]
  | seconds => ["s", "sec", "seconds"]
  | minutes => ["m", "minutes"]
  | hours => ["h", "hours"]
  | days => ["d", "days"]

def ofName? (name : String) : Option TimeUnit := all.find? fun u => u.names.contains name

def nanos : TimeUnit → Nat
  | nanoseconds => 1
  | milliseconds => 1_000_000
  | seconds => 1_000_000_000
  | minutes => 60 * 1_000_000_000
  | hours => 3600 * 1_000_000_000
  | days => 86400 * 1_000_000_000

end TimeUnit

structure Duration where
  seconds : UInt64
  nanos : Nat
  nanos_lt : nanos < 1_000_000_000 := by decide
  deriving DecidableEq, Repr

namespace Duration

def max : Duration := ⟨.ofNat 0xffff_ffff_ffff_ffff, 999_999_999, by decide⟩

def toNanos (d : Duration) : Nat := 1_000_000_000 * d.seconds.toNat + d.nanos

/-- A length given in nanoseconds, cut off at the longest one. -/
def ofNanos (n : Nat) : Duration :=
  if n / 1_000_000_000 < 0x1_0000_0000_0000_0000 then
    ⟨.ofNat (n / 1_000_000_000), n % 1_000_000_000, Nat.mod_lt _ (by decide)⟩
  else max

end Duration

structure Interval where
  amount : UInt64
  unit : TimeUnit
  deriving DecidableEq, Repr

namespace Interval

def duration (i : Interval) : Duration := .ofNanos (i.amount.toNat * i.unit.nanos)

def text (i : Interval) : String := s!"{i.amount.toNat}, {i.unit.symbol}"

end Interval

end Rollup
