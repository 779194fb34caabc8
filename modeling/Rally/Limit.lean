import Rally.Time.Instant
/-!
# Limits of a run

A limit says beyond which event number and which time no event is dispatched. Limits combine with
"and" and "or"; adding one to another makes either of them stop the run.
-/

namespace Rally

/-- A bound on the events that are dispatched. -/
inductive Limit where
  /-- No bound. -/
  | unlimited
  /-- At most so many events. -/
  | events (count : Nat)
  /-- No event later than an instant. -/
  | instant (last : Instant)
  /-- Reached where both are. -/
  | both (left right : Limit)
  /-- Reached where one of them is. -/
  | either (left right : Limit)
  deriving DecidableEq, Inhabited

namespace Limit

/-- Whether a limit forbids to dispatch an event, given its number from one on and its time. -/
def applies : Limit → Nat → Instant → Bool
  | .unlimited, _, _ => false
  | .events count, number, _ => decide (count < number)
  | .instant last, _, time => decide (last < time)
  | .both left right, number, time => left.applies number time && right.applies number time
  | .either left right, number, time => left.applies number time || right.applies number time

/-- Adds a limit that ends a run as well. -/
def add : Limit → Limit → Limit
  | limit, .unlimited => limit
  | .unlimited, limit => limit
  | limit, more => .either limit more

/-- The text of a limit. -/
def text : Limit → String
  | .unlimited => "None"
  | .events count => s!"MaxEventCount({count})"
  | .instant last => s!"MaxSimTime({last.label})"
  | .both left right => s!"{left.text} and {right.text}"
  | .either left right => s!"{left.text} or {right.text}"

/-- The structure of a limit in words. -/
def inspect : Limit → String
  | .unlimited => "None"
  | .events count => s!"EventCount({count})"
  | .instant last => s!"SimTime({last.text})"
  | .both left right => s!"CombinedAnd({left.inspect}, {right.inspect})"
  | .either left right => s!"CombinedOr({left.inspect}, {right.inspect})"

end Limit

end Rally
