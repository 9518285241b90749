/-!
# Lengths of time

Times and lengths of time are whole nanoseconds.  A length that is counted in a machine word of
seconds has a largest value; doubling stops there.
-/

namespace CiPlan

/-- A length of time, or a time since some start, in nanoseconds. -/
abbrev Duration := Nat

namespace Duration

/-- Nanoseconds in a second. -/
def perSecond : Nat := 1000000000

/-- Nanoseconds in a millisecond. -/
def perMilli : Nat := 1000000

/-- So many seconds. -/
def ofSecs (secs : UInt64) : Duration := secs.toNat * perSecond

/-- The whole seconds in a length of time. -/
def wholeSecs (d : Duration) : Nat := d / perSecond

/-- The largest length of time: 2^64 - 1 seconds and 999999999 nanoseconds. -/
def largest : Duration := UInt64.size * perSecond - 1

/-- Twice a length of time, as far as it can be represented. -/
def double (d : Duration) : Duration := min (2 * d) largest

end Duration

/-- The longest time limit of a bucket, a day. -/
def maxBucketTimeoutSecs : UInt64 := 24 * 3600

end CiPlan
