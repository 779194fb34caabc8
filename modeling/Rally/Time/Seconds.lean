import Rally.Number.Binary64
import Rally.Time.Duration
/-!
# Durations in fractional seconds

A number of seconds becomes the nearest whole number of nanoseconds, a tie going to the even one.
Negative numbers, NaN, infinities and numbers past the longest duration have no duration.
-/

namespace Rally

/-- Why a number of seconds is no duration. -/
inductive SecondsError where
  /-- The number is below zero. -/
  | negative
  /-- The number is no number or lies past the longest duration. -/
  | outOfRange
  deriving DecidableEq

/-- The wording of a failed conversion. -/
def SecondsError.message : SecondsError → String
  | .negative => "cannot convert float seconds to Duration: value is negative"
  | .outOfRange =>
    "cannot convert float seconds to Duration: value is either too big or NaN"

namespace Duration

/-- The whole nanoseconds nearest to a finite magnitude in seconds. -/
def nearestNanos (seconds : Binary64) : Nat :=
  Binary64.scaledQuotient (seconds.significand * nanosPerSecond) 1 (-seconds.exponent)

/-- The duration nearest to a number of seconds. -/
def ofSeconds (seconds : Binary64) : Except SecondsError Duration :=
  if seconds.isNaN then .error .outOfRange
  else if seconds.isNegative && !seconds.isZero then .error .negative
  else if seconds.isInfinite then .error .outOfRange
  else match ofNanos? (nearestNanos seconds) with
    | some duration => .ok duration
    | none => .error .outOfRange

/-- The double nearest to the sum of the whole seconds and of the fraction, each rounded first. -/
def toSeconds (d : Duration) : Binary64 :=
  (Binary64.ofNat d.secs).addMagnitudes (Binary64.ofRatio false d.nanos nanosPerSecond)

end Duration

end Rally
