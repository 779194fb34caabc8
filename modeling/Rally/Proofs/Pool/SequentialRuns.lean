import Rally.Proofs.Threads.LinkDirections
import Rally.Simulation.Report
/-!
# One pool of messages

A simulation has a meaning without ranks and windows: its components, and one pool of messages on
their way. First all components are set up, in the order of their registration. Then a message
leaves the pool, one that is due no later than any other and the oldest of its way, and its receiver
is called; what the receiver sends joins the pool behind the latency of its way. This goes on for as
long as somebody likes.
-/

namespace Rally

/-- A component in its place, and the rank that its hooks read. -/
structure Seat (C : Type) where
  /-- The component. -/
  slot : Slot C
  /-- The rank. -/
  rank : RankId

/-- The components at their positions. -/
abbrev Seats (C : Type) := ComponentId → Option (Seat C)

/-- Why a hook is called. -/
inductive Cause where
  /-- The component of a position is set up. -/
  | setup (id : ComponentId)
  /-- A message is due. -/
  | event (entry : Instant × Delivery)

namespace Cause

/-- The time that the hook reads. -/
def now : Cause → Instant
  | setup _ => Instant.zero
  | event entry => entry.1

/-- The position of the component that is called. -/
def component (links : Array Link) : Cause → ComponentId
  | setup id => id
  | event entry => ((links.getD entry.2.link default).endAt entry.2.arrival).component

/-- The message that is handed over, if there is one. -/
def taken : Cause → List (Instant × Delivery)
  | setup _ => []
  | event entry => [entry]

end Cause

/-- The messages of a hook with the ways that they go, if all their ports are configured. -/
def Slot.route? {C : Type} (slot : Slot C) (sends : List (PortId × Message)) :
    Option (List (Way × Message)) :=
  sends.mapM fun (port, message) =>
    (slot.binding? port).map fun binding => (⟨binding.link, binding.side⟩, message)

/-- The components of a rank. -/
def Rank.seats {C : Type} (rank : Rank C) : Seats C := fun id =>
  (rank.slot? id).map fun slot => ⟨slot, rank.id⟩

/-- All components of a simulation and the messages between them. -/
structure Pool (C : Type) where
  /-- The components. -/
  seats : Seats C
  /-- All links. -/
  links : Array Link
  /-- The traffic of each link. -/
  traffic : List Traffic
  /-- The messages on their way and when they are due, the oldest first. -/
  waiting : List (Instant × Delivery)

namespace Pool

variable {C : Type}

/-- Several ranks as one pool: the components and events of all, and the traffic that a report tells. -/
def ofRanks (ranks : List (Rank C)) : Pool C where
  seats id := ranks.findSome? fun rank => rank.seats id
  links := (ranks.head?.map Rank.links).getD #[]
  traffic := ranks.foldl (fun links rank => Report.mergeTraffic links rank.traffic.toList) []
  waiting := ranks.flatMap fun rank => rank.pending.inOrder.map Scheduled.entry

/-- Sends a message along a way. -/
def send (now : Instant) (pool : Pool C) (sent : Way × Message) : Pool C :=
  { pool with
    traffic := pool.traffic.modify sent.1.link fun traffic => traffic.send sent.1.side
    waiting := pool.waiting ++ [sent.1.post pool.links now sent.2] }

/-- Takes out a message that is handed over, where others are left. -/
def take (entry : Instant × Delivery) (left : List (Instant × Delivery)) (pool : Pool C) : Pool C :=
  { pool with
    traffic := pool.traffic.modify entry.2.link fun traffic =>
      traffic.deliver entry.2.arrival.opposite
    waiting := left }

/-- Whether two pools have the same components, counters and messages. Messages of one way are in the
same order. -/
structure Alike (pool other : Pool C) : Prop where
  /-- The components are in the same states. -/
  seats : pool.seats = other.seats
  /-- The links are the same. -/
  links : pool.links = other.links
  /-- Each link carried the same. -/
  traffic : pool.traffic = other.traffic
  /-- The same messages are on their way. -/
  waiting : pool.waiting.Perm other.waiting
  /-- Those of one way are in the same order. -/
  lines : ∀ way : Way, pool.waiting.filter way.bears = other.waiting.filter way.bears

end Pool

section Hooks

variable {C : Type} [Component C]

/-- The reaction of the hook of a component, unless it fails. -/
def Seat.reaction? (links : Array Link) (cause : Cause) (seat : Seat C) : Option (Reaction C) :=
  let context : Context := ⟨seat.slot.name, seat.rank, cause.now⟩
  match cause with
  | .setup _ =>
    let reaction := Component.setup seat.slot.component context
    match reaction.outcome with
    | .panicked _ => none
    | _ => some reaction
  | .event entry =>
    let port := ((links.getD entry.2.link default).endAt entry.2.arrival).port
    if seat.slot.receives port then
      let reaction := Component.handle seat.slot.component context port entry.2.message
      match reaction.outcome with
      | .completed => some reaction
      | _ => none
    else none

/-- The reaction of a setup hook. -/
theorem Seat.reaction?_setup (links : Array Link) (id : ComponentId) (seat : Seat C) :
    seat.reaction? links (.setup id) =
      match (Component.setup seat.slot.component
        ⟨seat.slot.name, seat.rank, Instant.zero⟩).outcome with
      | .panicked _ => none
      | _ => some (Component.setup seat.slot.component
        ⟨seat.slot.name, seat.rank, Instant.zero⟩) := rfl

/-- The reaction to a message at a port where messages are received. -/
theorem Seat.reaction?_event {links : Array Link} {entry : Instant × Delivery} {seat : Seat C}
    {port : PortId}
    (place : ((links.getD entry.2.link default).endAt entry.2.arrival).port = port)
    (receives : seat.slot.receives port = true) :
    seat.reaction? links (.event entry) =
      match (Component.handle seat.slot.component ⟨seat.slot.name, seat.rank, entry.1⟩ port
        entry.2.message).outcome with
      | .completed => some (Component.handle seat.slot.component
        ⟨seat.slot.name, seat.rank, entry.1⟩ port entry.2.message)
      | _ => none := by
  subst place
  exact if_pos receives

/-- A reaction to setup is that of the setup hook. -/
theorem Seat.eq_of_reaction?_setup {links : Array Link} {id : ComponentId} {seat : Seat C}
    {reaction : Reaction C} (reacts : seat.reaction? links (.setup id) = some reaction) :
    reaction = Component.setup seat.slot.component ⟨seat.slot.name, seat.rank, Instant.zero⟩ := by
  rw [reaction?_setup] at reacts
  split at reacts
  · cases reacts
  · exact (Option.some.inj reacts).symm

/-- A reaction to a message is that of the hook that handles it. -/
theorem Seat.eq_of_reaction?_event {links : Array Link} {entry : Instant × Delivery} {seat : Seat C}
    {reaction : Reaction C} (reacts : seat.reaction? links (.event entry) = some reaction) :
    reaction = Component.handle seat.slot.component ⟨seat.slot.name, seat.rank, entry.1⟩
      ((links.getD entry.2.link default).endAt entry.2.arrival).port entry.2.message := by
  simp only [reaction?] at reacts
  split at reacts
  · split at reacts
    · exact (Option.some.inj reacts).symm
    · cases reacts
  · cases reacts

/-- The component behind its hook and what the hook sent, unless something failed. -/
def Seat.answer? (links : Array Link) (cause : Cause) (seat : Seat C) :
    Option (Seat C × List (Way × Message)) :=
  (seat.reaction? links cause).bind fun reaction =>
    (seat.slot.route? reaction.sends).map fun sends =>
      ({ seat with slot := { seat.slot with component := reaction.component } }, sends)

namespace Pool

/-- Calls the hook of a component and sends what it has to send, unless something fails. -/
def call? (cause : Cause) (pool : Pool C) : Option (Pool C) :=
  let id := cause.component pool.links
  (pool.seats id).bind fun seat =>
    (seat.answer? pool.links cause).map fun (seat, sends) =>
      sends.foldl (send cause.now)
        { pool with seats := Function.update pool.seats id (some seat) }

/-- Where a component answers, this is what its call leads to. -/
theorem call?_eq {pool : Pool C} {links : Array Link} {cause : Cause} {seat answer : Seat C}
    {sends : List (Way × Message)} (known : pool.links = links)
    (found : pool.seats (cause.component links) = some seat)
    (answers : seat.answer? links cause = some (answer, sends)) :
    pool.call? cause = some (sends.foldl (send cause.now)
      { pool with seats := Function.update pool.seats (cause.component links) (some answer) }) := by
  subst known
  simp only [call?, found, Option.bind_some, answers, Option.map_some]

/-- Sets up components, one after the other. -/
def setupAll? (ids : List ComponentId) (pool : Pool C) : Option (Pool C) :=
  ids.foldlM (fun pool id => pool.call? (.setup id)) pool

/-- Whether a message may be the next one, and where handing it over leads. -/
inductive Steps (pool : Pool C) (entry : Instant × Delivery) (next : Pool C) : Prop where
  /-- The message is in the pool, none is due before it, and none of its way is older. -/
  | handed (before after : List (Instant × Delivery))
      (waiting : pool.waiting = before ++ entry :: after)
      (least : ∀ other ∈ pool.waiting, entry.1 ≤ other.1)
      (oldest : ∀ other ∈ before,
        ¬ (other.2.link = entry.2.link ∧ other.2.arrival = entry.2.arrival))
      (called : (pool.take entry (before ++ after)).call? (.event entry) = some next)

/-- Whether messages may be handed over one after the other, and where this leads. -/
inductive Runs : Pool C → List (Instant × Delivery) → Pool C → Prop where
  /-- Nothing is handed over. -/
  | refl (pool : Pool C) : Runs pool [] pool
  /-- A message is handed over in front of others. -/
  | step {first middle last : Pool C} {entry : Instant × Delivery}
      {rest : List (Instant × Delivery)} (steps : first.Steps entry middle)
      (runs : Runs middle rest last) : Runs first (entry :: rest) last

end Pool

end Hooks

end Rally
