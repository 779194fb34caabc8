import Rally.Simulation.Rank
import Rally.Topology.Resolution
/-!
# Building a simulation

A topology that passes the check becomes one rank for each rank number in use, and rank 0 where
there are no components. Components are created in the order of their registration.
-/

namespace Rally

/-- Choices about a run. -/
structure Options where
  /-- Whether the run prints nothing. -/
  quiet : Bool := false
  /-- The limit of each rank. -/
  limit : Limit := .unlimited
  deriving DecidableEq

namespace Options

/-- Prints nothing. -/
def silent (options : Options) : Options := { options with quiet := true }

/-- Adds a limit. -/
def limited (options : Options) (limit : Limit) : Options :=
  { options with limit := options.limit.add limit }

/-- Bounds the number of messages that each rank dispatches. -/
def maxEvents (options : Options) (count : Nat) : Options := options.limited (.events count)

/-- Bounds the simulated time. -/
def maxTime (options : Options) (last : Instant) : Options := options.limited (.instant last)

/-- The choices in words. -/
def inspect (options : Options) : String :=
  "Builder \x7b quiet: " ++ toString options.quiet ++ ", limit: " ++ options.limit.inspect ++
    " \x7d"

end Options

/-- A simulation that is ready to run. -/
structure Simulation (C : Type) where
  /-- The ranks in ascending order. -/
  ranks : List (Rank C)
  /-- The least latency between two ranks, if there are links between ranks. -/
  lookahead : Option Duration
  /-- The limit of each rank. -/
  limit : Limit
  /-- Whether the run prints nothing. -/
  quiet : Bool

namespace Simulation

variable {C : Type}

/-- A created component, the votes cast while it was created, and its rank. -/
structure Placed (C : Type) where
  /-- The component in its place. -/
  slot : Slot C
  /-- The votes. -/
  votes : List Vote
  /-- The rank. -/
  rank : RankId

/-- The target of the log lines about building. -/
def target : String := "pingpong::runtime::builder"

/-- Creates a component and writes log lines about it. -/
def place (clock : Instant) (part : Part C) (journal : Journal) :
    Journal × Except ConfigError (Placed C) :=
  let scope : Option (String × Scope) := some (target, ⟨part.name, part.rank⟩)
  let creation := part.type.create ⟨part.name, part.rank, part.params, part.type.ports, part.wiring⟩
  let journal := journal.addAll clock scope creation.notes
  match creation.result with
  | .error problem =>
    (journal.add clock none ⟨.error, target,
      ["failed to create component '", part.name, "': ", problem.message], []⟩, .error problem)
  | .ok fitted =>
    (journal.add clock none ⟨.debug, target,
      ["created component '", part.name, "' of type ", part.type.fullName, " on rank ",
        toString part.rank], []⟩,
      .ok ⟨⟨part.name, fitted.component, part.type.ports, fitted.bindings.ports⟩, fitted.votes,
        part.rank⟩)

/-- Creates components, up to the first that cannot be. -/
def placeAll (clock : Instant) :
    List (Part C) → Journal → Journal × Except ConfigError (List (Placed C))
  | [], journal => (journal, .ok [])
  | part :: rest, journal =>
    match place clock part journal with
    | (journal, .error problem) => (journal, .error problem)
    | (journal, .ok first) =>
      match placeAll clock rest journal with
      | (journal, .error problem) => (journal, .error problem)
      | (journal, .ok others) => (journal, .ok (first :: others))

/-- Adds a number to ascending ones. -/
def insertRank (rank : RankId) : List RankId → List RankId
  | [] => [rank]
  | first :: rest =>
    if rank < first then rank :: first :: rest
    else if rank = first then first :: rest
    else first :: insertRank rank rest

/-- The rank numbers in use, ascending, and 0 if there are none. -/
def rankIds (ranks : List RankId) : List RankId :=
  if ranks.isEmpty then [0] else ranks.foldl (fun ids rank => insertRank rank ids) []

/-- The least latency of links between ranks. -/
def lookaheadOf (links : List Link) : Option Duration :=
  ((links.filter Link.crossesRanks).map Link.latency).min?

/-- The rank of a number with its share of the components. -/
def rankOf (links : Array Link) (limit : Limit) (placed : List (Placed C)) (id : RankId) :
    Rank C where
  id := id
  slots := (placed.map fun p => if p.rank = id then some p.slot else none).toArray
  links := links
  traffic := links.map fun link => { name := link.name }
  tally := ({} : Tally).countAll ((placed.filter fun p => p.rank == id).flatMap Placed.votes)
  limit := limit

/-- Builds a simulation and writes log lines about it, stamped with the time of a clock. -/
def build (registry : Registry C) (options : Options) (topology : Topology) (clock : Instant)
    (journal : Journal) : Journal × Except ConfigError (Simulation C) :=
  match Assembly.ofTopology registry topology with
  | .error problem =>
    (journal.add clock none ⟨.error, target, [problem.message], []⟩, .error problem)
  | .ok assembly =>
    match placeAll clock assembly.parts.toList journal with
    | (journal, .error problem) => (journal, .error problem)
    | (journal, .ok placed) =>
      let ids := rankIds (placed.map Placed.rank)
      (journal, .ok {
        ranks := ids.map (rankOf assembly.links options.limit placed)
        lookahead := lookaheadOf assembly.links.toList
        limit := options.limit
        quiet := options.quiet })

/-- The text of a lookahead. -/
def lookaheadText (lookahead : Option Duration) (wrap : String → String) (missing : String) :
    String :=
  match lookahead with
  | some latency => wrap latency.text
  | none => missing

/-- A simulation in words. -/
def inspect (simulation : Simulation C) : String :=
  "Simulation \x7b ranks: " ++ toString simulation.ranks.length ++ ", lookahead: " ++
    lookaheadText simulation.lookahead (fun text => "Some(" ++ text ++ ")") "None" ++
    ", limit: " ++ simulation.limit.inspect ++ " \x7d"

end Simulation

end Rally
