import Rally.Topology.Definition
/-!
# Ready made topologies

Three ways to let initiators and responders play: one pair over a single link, a closed chain of
any players, and a ring of pairs with a rank for each.
-/

namespace Rally

/-- What a player does: begin a game, or answer. -/
inductive Role where
  | initiator
  | responder
  deriving DecidableEq

namespace Role

/-- The name of a role. -/
def label : Role → String
  | .initiator => "Ping"
  | .responder => "Pong"

/-- The component type of a role. -/
def type (role : Role) : String := "pingpong." ++ role.label

end Role

namespace Topology

/-- The parameters of a player; only an initiator counts rounds. -/
def playerParams (role : Role) (rounds : Nat) : List (String × String) :=
  match role with
  | .initiator => [("model", toString rounds)]
  | .responder => []

/-- Adds a player. -/
def addPlayer (topology : Topology) (name : String) (role : Role) (rank rounds : Nat) : Topology :=
  topology.addComponent name role.type rank (playerParams role rounds)

/-- An initiator and a responder joined by one link in both directions. -/
def simpleLoop (rounds : Nat) : Topology :=
  (((({} : Topology).addPlayer "ping" .initiator 0 rounds).addPlayer "pong" .responder 0 rounds)
    |>.addLink "ping_pong" Binary64.one ⟨"ping", "inout"⟩ ⟨"pong", "inout"⟩)

/-- The name of a stage of a chain. -/
def stageName (stages : List (Role × Nat)) (i : Nat) : String :=
  (stages[i]?.map fun (role, _) => role.label ++ toString i).getD ""

/-- Players in a closed chain, each sending to the next one. -/
def relayChain (stages : List (Role × Nat)) (rounds : Nat) : Topology :=
  let players := stages.zipIdx.foldl (fun topology ((role, rank), i) =>
    topology.addPlayer (stageName stages i) role rank rounds) ({} : Topology)
  (List.range stages.length).foldl (fun topology i =>
    topology.addLink s!"link{i}" Binary64.one ⟨stageName stages i, "output"⟩
      ⟨stageName stages ((i + 1) % stages.length), "input"⟩) players

/-- The name of the initiator of a pair. -/
def ringPing (i : Nat) : String := s!"PingPong{i}.Ping"

/-- The name of the responder of a pair. -/
def ringPong (i : Nat) : String := s!"PingPong{i}.Pong"

/-- Pairs of players in a ring, each pair on a rank of its own. -/
def relayRing (count rounds : Nat) : Topology :=
  let pairs := (List.range count).foldl (fun topology i =>
    topology.addPlayer (ringPing i) .initiator i rounds
      |>.addPlayer (ringPong i) .responder i rounds
      |>.addLink s!"PingPong{i}.link" Binary64.one ⟨ringPing i, "output"⟩ ⟨ringPong i, "input"⟩)
    ({} : Topology)
  (List.range count).foldl (fun topology i =>
    topology.addLink s!"ring{i}" (Binary64.ofNat 2) ⟨ringPong i, "output"⟩
      ⟨ringPing ((i + 1) % count), "input"⟩) pairs

end Topology

end Rally
