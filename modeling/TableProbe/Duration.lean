import TableProbe.Crash
import TableProbe.Decimal.Fixed

/-!
# Durations

A span of time in whole seconds and nanoseconds.
-/

namespace TableProbe

/-- The nanoseconds of a second. -/
abbrev nanosPerSecond : Nat := 1000000000

/-- A span of time. -/
structure Duration where
  seconds : UInt64
  nanos : Fin nanosPerSecond
  deriving DecidableEq, Repr

namespace Duration

/-- So many seconds and nanoseconds; nanoseconds that make up whole seconds are
carried over. -/
def ofParts (seconds : UInt64) (nanos : UInt32) : Except Crash Duration :=
  let total := seconds.toNat + nanos.toNat / nanosPerSecond
  if total < UInt64.size then
    .ok { seconds := UInt64.ofNat total, nanos := Fin.ofNat nanosPerSecond nanos.toNat }
  else .error .durationTooLong

/-- A span of so many nanoseconds; at most the longest one. -/
def ofNanos (n : Nat) : Duration where
  seconds := UInt64.ofNat (min (n / nanosPerSecond) (UInt64.size - 1))
  nanos := Fin.ofNat nanosPerSecond n

/-- Whether no time passed. -/
def isZero (d : Duration) : Bool := d.seconds == 0 && d.nanos.val == 0

/-- The length in seconds, as a floating-point number. -/
def toFloat (d : Duration) : Float :=
  d.seconds.toFloat + (UInt64.ofNat d.nanos.val).toFloat / 1000000000.0

/-- The length in nanoseconds. -/
def toNanos (d : Duration) : Nat := d.seconds.toNat * nanosPerSecond + d.nanos.val

/-- The length with one decimal place, in the largest unit of which it holds a
whole one. -/
def brief (d : Duration) : String :=
  let n := d.toNanos
  if 1000000000 ≤ n then Decimal.fixed 1 n 1000000000 ++ "s"
  else if 1000000 ≤ n then Decimal.fixed 1 n 1000000 ++ "ms"
  else if 1000 ≤ n then Decimal.fixed 1 n 1000 ++ "µs"
  else Decimal.fixed 1 n 1 ++ "ns"

end Duration

end TableProbe
