import Rally.Text.Quoted
import Rally.Time.Instant
/-!
# Links

A link joins two ports and delays every message by its latency, in each direction alike. Its traffic
counts the messages handed to each direction and taken out of it.
-/

namespace Rally

/-- The number of a rank: an event loop of its own. -/
abbrev RankId := Nat

/-- The position of a component in its topology. -/
abbrev ComponentId := Nat

/-- The position of a port among those its component type declares. -/
abbrev PortId := Nat

/-- The position of a link in its topology. -/
abbrev LinkId := Nat

/-- One of the two ends of a link. -/
inductive Side where
  /-- The end written first. -/
  | a
  /-- The other end. -/
  | b
  deriving DecidableEq, Inhabited

/-- The other side. -/
def Side.opposite : Side → Side
  | .a => .b
  | .b => .a

/-- Turning twice leads back. -/
@[simp] theorem Side.opposite_opposite (s : Side) : s.opposite.opposite = s := by
  cases s <;> rfl

/-- A side that is not another one is the opposite one. -/
theorem Side.eq_opposite {s t : Side} (differ : s ≠ t) : s = t.opposite := by
  cases s <;> cases t
  case a.a | b.b => exact absurd rfl differ
  case a.b | b.a => rfl

/-- The port that an end of a link is attached to. -/
structure LinkEnd where
  /-- The attached component. -/
  component : ComponentId
  /-- The port on it. -/
  port : PortId
  /-- The rank that the component is placed on. -/
  rank : RankId
  deriving DecidableEq, Inhabited

/-- A channel between two ports. -/
structure Link where
  /-- Its name in the topology. -/
  name : String
  /-- The delay of every message. -/
  latency : Duration
  /-- The end at side `a`. -/
  a : LinkEnd
  /-- The end at side `b`. -/
  b : LinkEnd
  deriving DecidableEq, Inhabited

namespace Link

/-- The end at a side. -/
def endAt (link : Link) : Side → LinkEnd
  | .a => link.a
  | .b => link.b

/-- Whether the two ends are placed on different ranks. -/
def crossesRanks (link : Link) : Bool := link.a.rank != link.b.rank

end Link

/-- The messages of one direction of a link. -/
structure Flow where
  /-- Messages handed to the link. -/
  sent : Nat := 0
  /-- Messages handed to the receiver. -/
  delivered : Nat := 0
  deriving DecidableEq, Inhabited

namespace Flow

/-- Messages sent and not yet delivered. -/
def inFlight (flow : Flow) : Nat := flow.sent - flow.delivered

/-- Whether no message is on its way. -/
def isIdle (flow : Flow) : Bool := flow.inFlight == 0

/-- The sum of two counts. -/
def add (x y : Flow) : Flow := ⟨x.sent + y.sent, x.delivered + y.delivered⟩

/-- A count in words. -/
def inspect (flow : Flow) : String :=
  "DirectionStats \x7b sent: " ++ toString flow.sent ++ ", delivered: " ++
    toString flow.delivered ++ " \x7d"

end Flow

/-- The messages of both directions of a link. -/
structure Traffic where
  /-- The name of the link. -/
  name : String
  /-- From side `a` to side `b`. -/
  aToB : Flow := {}
  /-- From side `b` to side `a`. -/
  bToA : Flow := {}
  deriving DecidableEq, Inhabited

namespace Traffic

/-- The flow that leaves a side. -/
def leaving (traffic : Traffic) : Side → Flow
  | .a => traffic.aToB
  | .b => traffic.bToA

/-- Changes the flow that leaves a side. -/
def modify (traffic : Traffic) (side : Side) (change : Flow → Flow) : Traffic :=
  match side with
  | .a => { traffic with aToB := change traffic.aToB }
  | .b => { traffic with bToA := change traffic.bToA }

/-- Counts a message handed to the link at a side. -/
def send (traffic : Traffic) (side : Side) : Traffic :=
  traffic.modify side fun flow => { flow with sent := flow.sent + 1 }

/-- Counts a message that left a side and was handed to the receiver at the other one. -/
def deliver (traffic : Traffic) (side : Side) : Traffic :=
  traffic.modify side fun flow => { flow with delivered := flow.delivered + 1 }

/-- Messages handed to the link in both directions. -/
def sent (traffic : Traffic) : Nat := traffic.aToB.sent + traffic.bToA.sent

/-- Messages handed to the receivers in both directions. -/
def delivered (traffic : Traffic) : Nat := traffic.aToB.delivered + traffic.bToA.delivered

/-- The counts of two observers together. -/
def add (x y : Traffic) : Traffic := ⟨x.name, x.aToB.add y.aToB, x.bToA.add y.bToA⟩

/-- The counts of a link in words. -/
def text (traffic : Traffic) : String :=
  s!"{traffic.name} (a->b {traffic.aToB.delivered}/{traffic.aToB.sent}, " ++
    s!"b->a {traffic.bToA.delivered}/{traffic.bToA.sent})"

/-- The counts of a link with all their names. -/
def inspect (traffic : Traffic) : String :=
  "LinkStats \x7b name: " ++ Text.quote traffic.name ++ ", a_to_b: " ++ traffic.aToB.inspect ++
    ", b_to_a: " ++ traffic.bToA.inspect ++ " \x7d"

end Traffic

end Rally
