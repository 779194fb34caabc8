import Rally.Number.Decimal
import Rally.Text.Blank
import Rally.Time.Seconds
/-!
# Points in simulated time

An instant is the duration since the start of a simulation. Its text has the largest unit that
leaves a whole part, with the fraction's trailing zeros removed; the last instant reads `inf`.
-/

namespace Rally

namespace Duration

/-- A fraction of some digits without its trailing zeros, behind a point if anything is left. -/
def fractionText (fraction width : Nat) : String :=
  let digits := Nat.toDigits 10 fraction
  let padded := List.replicate (width - digits.length) '0' ++ digits
  let kept := (padded.reverse.dropWhile (· == '0')).reverse
  if fraction = 0 then "" else "." ++ String.ofList kept

/-- The text of a duration in seconds, milliseconds, microseconds or nanoseconds. -/
def text (d : Duration) : String :=
  if 0 < d.secs then toString d.secs ++ fractionText d.nanos 9 ++ "s"
  else if 1000000 ≤ d.nanos then
    toString (d.nanos / 1000000) ++ fractionText (d.nanos % 1000000) 6 ++ "ms"
  else if 1000 ≤ d.nanos then
    toString (d.nanos / 1000) ++ fractionText (d.nanos % 1000) 3 ++ "µs"
  else toString d.nanos ++ "ns"

end Duration

/-- A point in simulated time: the duration since the start of the simulation. -/
abbrev Instant := Duration

namespace Instant

/-- The start of every simulation. -/
def zero : Instant := Duration.zero

/-- The last instant that can be represented. -/
def max : Instant := Duration.max

/-- The text of an instant, `inf` for the last one. -/
def label (t : Instant) : String := if t = max then "inf" else t.text

/-- Reads a number of seconds, with blank characters around it. -/
def parse? (text : String) : Option Instant := do
  let seconds ← Binary64.parse? (String.ofList (Text.trim text.toList))
  (Duration.ofSeconds seconds).toOption

/-- The complaint about a text that names no instant. -/
def invalidMessage (text : String) : String :=
  s!"invalid time '{text}', expected a non-negative number of seconds"

/-- The complaint about a sum past the last instant. -/
def overflowMessage : String := "Overflow when adding Duration to SimTime"

/-- The instant some time later; past the last one there is none, which is a complaint. -/
def plus (t : Instant) (d : Duration) : Except String Instant :=
  match t.checkedAdd d with
  | some later => .ok later
  | none => .error overflowMessage

end Instant

end Rally
