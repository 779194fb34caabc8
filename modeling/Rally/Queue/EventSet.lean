import Rally.Queue.Fifo
import Rally.Queue.Heap
import Rally.Time.Instant
/-!
# Sets of future events

Events leave the set by time, and at one time in the order in which they entered it. Those that
enter for the instant of the last event taken wait in a queue of their own, since no event that
enters later can come before them; all others wait in a heap.
-/

namespace Rally

/-- An event waiting for its time. -/
structure Scheduled (α : Type) where
  /-- When the event is due. -/
  time : Instant
  /-- How many events entered the set before it. -/
  serial : Nat
  /-- What happens then. -/
  payload : α

/-- Whether an event is due before another one, or at the same time and entered earlier. -/
def Scheduled.before {α : Type} (x y : Scheduled α) : Bool :=
  decide (x.time < y.time) || (x.time == y.time && decide (x.serial < y.serial))

/-- Events ordered by time and then by their entry. -/
structure EventSet (α : Type) where
  /-- The events of later instants, and those of the last one that entered before it. -/
  later : Heap (Scheduled α) := .empty
  /-- The events that entered for the instant of the last event taken. -/
  current : Fifo (Scheduled α) := {}
  /-- The instant of the last event taken. -/
  last : Instant := Instant.zero
  /-- The number of events that ever entered. -/
  entered : Nat := 0

namespace EventSet

variable {α : Type}

/-- The number of events waiting. -/
def size (set : EventSet α) : Nat := set.later.size + set.current.size

/-- Whether no event is waiting. -/
def isEmpty (set : EventSet α) : Bool := set.later.isEmpty && set.current.isEmpty

/-- The instant of the next event. -/
def nextTime? (set : EventSet α) : Option Instant :=
  match set.current.peek?, set.later.peek? with
  | some now, some later => some (min now.time later.time)
  | some now, none => some now.time
  | none, some later => some later.time
  | none, none => none

/-- Whether the next event waits in the queue of the last instant. -/
def isCurrentNext (set : EventSet α) : Bool :=
  match set.current.peek?, set.later.peek? with
  | some now, some later => now.before later
  | some _, none => true
  | none, _ => false

/-- The next event, and the set without it. -/
def pop? (set : EventSet α) : Option (Scheduled α × EventSet α) :=
  if set.isCurrentNext then
    set.current.pop?.map fun (event, current) => (event, { set with current, last := event.time })
  else
    (set.later.pop? Scheduled.before).map fun (event, later) =>
      (event, { set with later, last := event.time })

/-- Adds an event, which may not be due before the last one taken. -/
def add (set : EventSet α) (time : Instant) (payload : α) : EventSet α :=
  let event : Scheduled α := ⟨time, set.entered, payload⟩
  let set := { set with entered := set.entered + 1 }
  if time = set.last then { set with current := set.current.push event }
  else { set with later := set.later.push Scheduled.before event }

end EventSet

end Rally
