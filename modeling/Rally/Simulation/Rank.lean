import Rally.Limit
import Rally.Queue.EventSet
import Rally.Topology.Registry
/-!
# The event loop of a rank

A rank owns some of the components of a simulation and delivers the messages addressed to them in
the order of their times, and at one time in the order in which they were scheduled. Messages for
components of other ranks are collected for whoever drives the rank.
-/

namespace Rally

/-- A message on its way to the end of a link. -/
structure Delivery where
  /-- The link. -/
  link : LinkId
  /-- The side it arrives at. -/
  arrival : Side
  /-- The message. -/
  message : Message
  deriving DecidableEq, Inhabited

/-- A delivery for a component of another rank. -/
structure Parcel where
  /-- The rank it goes to. -/
  target : RankId
  /-- The rank it comes from. -/
  origin : RankId
  /-- How many parcels left that rank before it. -/
  serial : Nat
  /-- When it is due. -/
  time : Instant
  /-- What is delivered. -/
  delivery : Delivery
  deriving DecidableEq, Inhabited

namespace Parcel

/-- The order in which parcels of one exchange are scheduled: by time, origin and serial number. -/
def le (x y : Parcel) : Bool :=
  decide (x.time < y.time) ||
    (x.time == y.time && (decide (x.origin < y.origin) ||
      (x.origin == y.origin && decide (x.serial ≤ y.serial))))

end Parcel

/-- Why a run ends without a report. -/
inductive RunError where
  /-- A component or its wiring broke the protocol. -/
  | componentFault (component : String) (violation : Violation)
  /-- A hook broke off on a rank. -/
  | rankPanicked (rank : RankId) (message : String)
  /-- A message arrived on a rank that does not own its receiver. -/
  | misrouted (link : String) (rank : RankId)
  /-- A message was addressed to a rank that does not exist. -/
  | unknownRank (rank : RankId)
  /-- A rank stopped since another one failed. -/
  | peerAborted (rank : RankId)
  /-- The configuration was wrong. -/
  | misconfigured (problem : ConfigError)
  deriving DecidableEq

/-- The wording of a failed run. -/
def RunError.message : RunError → String
  | .componentFault component violation => s!"component '{component}' failed: {violation.message}"
  | .rankPanicked rank message => s!"rank {rank} panicked: {message}"
  | .misrouted link rank =>
    s!"rank {rank} received an event over link '{link}' for a component it does not own"
  | .unknownRank rank => s!"event addressed to unknown rank {rank}"
  | .peerAborted rank => s!"rank {rank} stopped because a peer aborted"
  | .misconfigured problem => problem.message

/-- Why a rank cannot go on. -/
inductive Halt where
  /-- With an error. -/
  | failed (error : RunError)
  /-- Since a hook broke off. -/
  | panicked (panic : Panic)
  deriving DecidableEq

/-- Why a rank stops to dispatch. -/
inductive Stop where
  /-- No message is left before the bound. -/
  | idle
  /-- All voters of the rank are ready. -/
  | voted
  /-- The limit forbids the next message. -/
  | limitReached
  deriving DecidableEq

/-- A component in its place. -/
structure Slot (C : Type) where
  /-- The name of the component. -/
  name : String
  /-- Its state. -/
  component : C
  /-- The ports its type declares. -/
  declared : List PortInfo
  /-- The bindings of these ports. -/
  ports : Ports

namespace Slot

variable {C : Type}

/-- The binding of a port, if it is configured. -/
def binding? (slot : Slot C) (port : PortId) : Option Binding := slot.ports[port]?.join

/-- The name of a port, or its number where the type declares none. -/
def portName (slot : Slot C) (port : PortId) : String :=
  (slot.declared[port]?.map PortInfo.name).getD s!"#{port}"

/-- Whether messages are received at a port. -/
def receives (slot : Slot C) (port : PortId) : Bool :=
  (slot.binding? port).any fun binding => binding.mode == .duplex

end Slot

/-- The state of a rank. -/
structure Rank (C : Type) where
  /-- Its number. -/
  id : RankId
  /-- Its components at their positions in the topology; those of other ranks are missing. -/
  slots : Array (Option (Slot C))
  /-- All links. -/
  links : Array Link
  /-- What the rank saw of the traffic of each link. -/
  traffic : Array Traffic
  /-- The deliveries to come. -/
  pending : EventSet Delivery := {}
  /-- Deliveries for other ranks, the last one first. -/
  outgoing : List Parcel := []
  /-- The number of parcels that ever left. -/
  shipped : Nat := 0
  /-- The votes of its components. -/
  tally : Tally := {}
  /-- The limit of the run. -/
  limit : Limit := .unlimited
  /-- The number of messages dispatched. -/
  dispatched : Nat := 0
  /-- The time of the last message dispatched. -/
  lastTime : Instant := Instant.zero
  /-- The simulated time. -/
  now : Instant := Instant.zero
  /-- The log lines written. -/
  journal : Journal := ⟨Filter.off, #[]⟩

namespace Rank

variable {C : Type}

/-- The target of the log lines of an event loop. -/
def target : String := "pingpong::runtime"

/-- The component of a position, if the rank owns it. -/
def slot? (rank : Rank C) (id : ComponentId) : Option (Slot C) := rank.slots[id]?.join

/-- The link of a position. -/
def link (rank : Rank C) (id : LinkId) : Link := rank.links.getD id default

/-- What the hooks of a component know. -/
def context (rank : Rank C) (slot : Slot C) : Context := ⟨slot.name, rank.id, rank.now⟩

/-- The scope of the log lines of a component. -/
def scope (rank : Rank C) (slot : Slot C) : Option (String × Scope) :=
  some (target, ⟨slot.name, rank.id⟩)

/-- Writes a log line in the scope of a component. -/
def note (rank : Rank C) (slot : Slot C) (level : Level) (message : List String) : Rank C :=
  { rank with journal := rank.journal.add rank.now (rank.scope slot) ⟨level, target, message, []⟩ }

/-- Takes over what a hook did besides sending. -/
def absorb (rank : Rank C) (id : ComponentId) (slot : Slot C) (reaction : Reaction C) : Rank C :=
  { rank with
    slots := rank.slots.setIfInBounds id (some { slot with component := reaction.component })
    tally := rank.tally.countAll reaction.votes
    journal := rank.journal.addAll rank.now (rank.scope slot) reaction.notes }

/-- Hands a message to a link: it is due at the far end after the latency of the link. -/
def send (rank : Rank C) (binding : Binding) (message : Message) : Rank C :=
  let link := rank.link binding.link
  let arrival := binding.side.opposite
  let receiver := link.endAt arrival
  let time := rank.now.saturatingAdd link.latency
  let delivery : Delivery := ⟨binding.link, arrival, message⟩
  let rank := { rank with
    traffic := rank.traffic.modify binding.link fun traffic => traffic.send binding.side }
  if receiver.rank = rank.id then { rank with pending := rank.pending.add time delivery }
  else
    { rank with
      outgoing := ⟨receiver.rank, rank.id, rank.shipped, time, delivery⟩ :: rank.outgoing
      shipped := rank.shipped + 1 }

/-- Hands the messages of a hook to the links, up to the first one on a port that is not
configured. -/
def flush (slot : Slot C) : List (PortId × Message) → Rank C → Rank C × Option Halt
  | [], rank => (rank, none)
  | (port, message) :: rest, rank =>
    match slot.binding? port with
    | some binding => flush slot rest (rank.send binding message)
    | none =>
      let name := slot.portName port
      (rank.note slot .error ["sent on port '", name, "' without configuring it"],
        some (.failed (.componentFault slot.name (.unconfiguredPort name))))

section Hooks

variable [Component C]

/-- Calls the setup hook of a position. -/
def setup (id : ComponentId) (rank : Rank C) : Rank C × Option Halt :=
  match rank.slot? id with
  | none => (rank, none)
  | some slot =>
    let reaction := Component.setup slot.component (rank.context slot)
    let rank := rank.absorb id slot reaction
    match reaction.outcome with
    | .panicked panic => (rank, some (.panicked panic))
    | _ => flush slot reaction.sends rank

/-- Calls the setup hooks of some positions, up to the first failure. -/
def setupAll : List ComponentId → Rank C → Rank C × Option Halt
  | [], rank => (rank, none)
  | id :: rest, rank =>
    match setup id rank with
    | (rank, none) => setupAll rest rank
    | failure => failure

/-- Calls the setup hooks of all components in the order of their registration. -/
def start (rank : Rank C) : Rank C × Option Halt :=
  setupAll (List.range rank.slots.size) { rank with now := Instant.zero }

/-- Reports a violation of a component. -/
def fail (rank : Rank C) (slot : Slot C) (violation : Violation) : Rank C × Option Halt :=
  (rank.note slot .error [violation.message],
    some (.failed (.componentFault slot.name violation)))

/-- Hands a message to its receiver. -/
def deliver (rank : Rank C) (id : ComponentId) (slot : Slot C) (port : PortId)
    (message : Message) : Rank C × Option Halt :=
  if slot.receives port then
    let reaction := Component.handle slot.component (rank.context slot) port message
    let rank := rank.absorb id slot reaction
    match reaction.outcome with
    | .completed => flush slot reaction.sends rank
    | .violated violation => rank.fail slot violation
    | .panicked panic => (rank, some (.panicked panic))
  else rank.fail slot (.noHandler (slot.portName port))

/-- Advances the time to that of a message and delivers it. -/
def dispatch (event : Scheduled Delivery) (rank : Rank C) : Rank C × Option Halt :=
  let delivery := event.payload
  let rank := { rank with
    dispatched := rank.dispatched + 1, now := event.time, lastTime := event.time }
  let link := rank.link delivery.link
  let receiver := link.endAt delivery.arrival
  match rank.slot? receiver.component with
  | none => (rank, some (.failed (.misrouted link.name rank.id)))
  | some slot =>
    let rank := { rank with
      traffic := rank.traffic.modify delivery.link fun traffic =>
        traffic.deliver delivery.arrival.opposite }
    rank.deliver receiver.component slot receiver.port delivery.message

/-- Dispatches messages due before an instant, if there is one, until nothing is left, the limit
forbids the next one, a component fails or, where votes count, all voters of the rank are ready.
Fuel bounds the number of messages; there is no result without enough of it. -/
def dispatchUntil (bound : Option Instant) (byVote : Bool) :
    Nat → Rank C → Option (Rank C × Except Halt Stop)
  | 0, _ => none
  | fuel + 1, rank =>
    if byVote && rank.tally.allReady then some (rank, .ok .voted)
    else
      match rank.pending.nextTime? with
      | none => some (rank, .ok .idle)
      | some time =>
        if bound.any (· ≤ time) then some (rank, .ok .idle)
        else if rank.limit.applies (rank.dispatched + 1) time then some (rank, .ok .limitReached)
        else
          match rank.pending.pop? with
          | none => some (rank, .ok .idle)
          | some (event, pending) =>
            match dispatch event { rank with pending } with
            | (rank, none) => dispatchUntil bound byVote fuel rank
            | (rank, some halt) => some (rank, .error halt)

/-- Calls the finish hook of a position. What it sends is discarded. -/
def finishOne (id : ComponentId) (rank : Rank C) : Rank C × Option Halt :=
  match rank.slot? id with
  | none => (rank, none)
  | some slot =>
    let reaction := Component.finish slot.component (rank.context slot)
    let rank := rank.absorb id slot reaction
    match reaction.outcome with
    | .panicked panic => (rank, some (.panicked panic))
    | _ =>
      if reaction.sends.isEmpty then (rank, none)
      else
        (rank.note slot .trace
          ["discarding ", toString reaction.sends.length, " events sent after the end"], none)

/-- Calls the finish hooks of some positions, up to the first that breaks off. -/
def finishAll : List ComponentId → Rank C → Rank C × Option Halt
  | [], rank => (rank, none)
  | id :: rest, rank =>
    match finishOne id rank with
    | (rank, none) => finishAll rest rank
    | failure => failure

/-- Calls the finish hooks of all components in the order of their registration. -/
def finish (rank : Rank C) : Rank C × Option Halt := finishAll (List.range rank.slots.size) rank

end Hooks

/-- Schedules deliveries from other ranks. Their order does not depend on that of their arrival. -/
def receive (parcels : List Parcel) (rank : Rank C) : Rank C :=
  { rank with
    pending := (parcels.mergeSort Parcel.le).foldl
      (fun pending parcel => pending.add parcel.time parcel.delivery) rank.pending }

end Rank

end Rally
