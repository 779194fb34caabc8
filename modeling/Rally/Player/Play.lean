import Rally.Topology.Readymade
import Rally.Topology.Registry
/-!
# Ways to play

A player is joined to others either by one port in both directions, with fixed messages, or by one
port for each direction; then every player adds its role and rank to the message, whose text so
spells the way it took.
-/

namespace Rally

/-- How a player is joined to others. -/
inductive Play where
  /-- By one port in both directions. -/
  | loop (inout : PortId)
  /-- By one port for each direction. -/
  | relay (input output : PortId)
  deriving DecidableEq, Inhabited

namespace Play

/-- The ports of all players. -/
def ports : List PortInfo := [
  ⟨"inout", "bidirectional port of the direct loop"⟩,
  ⟨"input", "receives messages in a relay"⟩,
  ⟨"output", "sends messages in a relay"⟩]

/-- The way to play that the links of a player ask for. A link at `inout` excludes the others. -/
def configure (site : Site) : Except ConfigError (Play × site.Bindings) :=
  if site.isWired "inout" then
    match ["input", "output"].find? site.isWired with
    | some port => .error (.conflictingPort site.name port "inout")
    | none => do
      let (inout, ports) ← site.configure .duplex "inout" site.noPorts
      return (.loop inout, ports)
  else do
    let (input, ports) ← site.configure .duplex "input" site.noPorts
    let (output, ports) ← site.configure .sendOnly "output" ports
    return (.relay input output, ports)

/-- The port on which a player sends. -/
def output : Play → PortId
  | .loop inout => inout
  | .relay _ output => output

/-- Whether messages spell their way. -/
def isRelay : Play → Bool
  | .loop _ => false
  | .relay _ _ => true

/-- What a player of a role adds to a message. -/
def tag (role : Role) (rank : RankId) : String := role.label ++ toString rank

/-- The fixed message of a role. -/
def fixed : Role → String
  | .initiator => "ping"
  | .responder => "pong"

/-- The first message of a player. -/
def opening (play : Play) (role : Role) (rank : RankId) : String :=
  match play with
  | .loop _ => fixed role
  | .relay _ _ => tag role rank

/-- The message with which a player answers another one. -/
def answer (play : Play) (role : Role) (rank : RankId) (received : String) : String :=
  match play with
  | .loop _ => fixed role
  | .relay _ _ => received ++ "-" ++ tag role rank

end Play

end Rally
