import Rally.Link
import Rally.Message
import Rally.Vote
/-!
# Components

A component is a state with three hooks: one for the start of a run, one for every message that
arrives, and one for its end. A hook knows the name and rank of its component and the simulated
time, and answers with a reaction: the next state, messages to send, votes and log lines.
-/

namespace Rally

/-- What a hook knows about its surroundings. -/
structure Context where
  /-- The name of the component. -/
  name : String
  /-- The rank it is placed on. -/
  rank : RankId
  /-- The simulated time. -/
  now : Instant

/-- How a hook breaks off without a result. -/
inductive Panic where
  /-- With a message. -/
  | text (message : String)
  /-- Without one. -/
  | unnamed
  deriving DecidableEq

/-- The wording of a panic. -/
def Panic.message : Panic → String
  | .text message => message
  | .unnamed => "unknown panic"

/-- How a hook ends. -/
inductive Outcome where
  /-- As it should. -/
  | completed
  /-- With a violation of the protocol. -/
  | violated (violation : Violation)
  /-- Not at all. -/
  | panicked (panic : Panic)
  deriving DecidableEq

/-- The answer of a hook. -/
structure Reaction (C : Type) where
  /-- The next state of the component. -/
  component : C
  /-- The messages to send, each on a port, in order. -/
  sends : List (PortId × Message) := []
  /-- The votes cast, in order. -/
  votes : List Vote := []
  /-- The log lines, in order. -/
  notes : List Note := []
  /-- How the hook ended. -/
  outcome : Outcome := .completed

namespace Reaction

variable {C D : Type}

/-- The reaction of a component inside of another type. -/
def map (wrap : C → D) (reaction : Reaction C) : Reaction D :=
  { reaction with component := wrap reaction.component }

end Reaction

/-- States with hooks. A violation means something only where a message is handled. -/
class Component (C : Type) where
  /-- Called once, before any message arrives on the component's rank. -/
  setup : C → Context → Reaction C
  /-- Called for every message that arrives at a port. -/
  handle : C → Context → PortId → Message → Reaction C
  /-- Called once, after the last message of the component's rank. -/
  finish : C → Context → Reaction C

end Rally
