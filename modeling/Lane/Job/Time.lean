import Mathlib.Algebra.Order.Group.Int

/-! Timestamps and durations of the queue, with the two overflow exits of their sums. -/

namespace Lane

/-- A UTC timestamp in nanoseconds since the Unix epoch. -/
abbrev DateTime := Int

/-- A non-negative span of time in nanoseconds. -/
abbrev Duration := Nat

/-- The last representable timestamp, 262142-12-31T23:59:59.999999999Z. -/
def maxDateTime : DateTime := 8210266876799999999999

/-- The first representable timestamp, -262143-01-01T00:00:00Z. -/
def minDateTime : DateTime := -8334601228800000000000

/-- The largest signed time delta, `i64::MAX` milliseconds. -/
def maxTimeDelta : Duration := 9223372036854775807000000

/-- Nanoseconds in one millisecond. -/
def nanosPerMilli : Nat := 1000000

/-- Conversion of an unsigned span to a signed delta; it fails above the delta's range. -/
def durationFromStd (duration : Duration) : Option Duration :=
  if duration ≤ maxTimeDelta then some duration else none

/-- Checked timestamp addition; it fails past the last representable timestamp. -/
def checkedAddSigned (time : DateTime) (delta : Duration) : Option DateTime :=
  if time + delta ≤ maxDateTime then some (time + delta) else none

/-- Checked timestamp subtraction; it fails before the first representable timestamp. -/
def checkedSubSigned (time : DateTime) (delta : Duration) : Option DateTime :=
  if minDateTime ≤ time - delta then some (time - delta) else none

/-- The sum used for delays, leases, TTLs and backoff: both overflow exits give `time`. -/
def addDuration (time : DateTime) (duration : Duration) : DateTime :=
  match durationFromStd duration with
  | some delta => (checkedAddSigned time delta).getD time
  | none => time

/-- The difference used for retention and cleaning cutoffs, with the same fallback. -/
def subtractDuration (time : DateTime) (duration : Duration) : DateTime :=
  match durationFromStd duration with
  | some delta => (checkedSubSigned time delta).getD time
  | none => time

/-- Whole milliseconds since the epoch, rounded towards the past. -/
def timestampMillis (time : DateTime) : Int := Int.fdiv time nanosPerMilli

end Lane
