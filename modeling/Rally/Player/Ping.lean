import Rally.Player.Play
/-!
# The initiator

An initiator sends the first message of a game and answers every message it receives, until it has
received as many as it was told to wait for. Then it votes for the end and stays silent.
-/

namespace Rally

/-- The state of an initiator. -/
structure Ping where
  /-- How it is joined to others. -/
  play : Play
  /-- The rank it is placed on. -/
  rank : RankId
  /-- The rounds played. -/
  roundCount : Nat := 0
  /-- The rounds to play. -/
  maxRounds : Nat
  /-- The messages sent. -/
  sent : Nat := 0
  /-- The messages received. -/
  received : Nat := 0
  /-- The last message received. -/
  last : Option String := none
  /-- Its voter. -/
  voter : Voter
  deriving DecidableEq

namespace Ping

/-- The target of its log lines. -/
def target : String := "pingpong::pingpong::ping"

/-- A log line. -/
def note (message : List String) : Note := ⟨.info, target, message, []⟩

/-- The rounds played unless told otherwise. -/
def defaultRounds : Nat := 10

/-- Creates an initiator, which takes part in the vote from the beginning. -/
def create (site : Site) : Creation Ping site :=
  match site.params.find "model" (Parameters.natural? 64) defaultRounds with
  | .error problem => { result := .error problem }
  | .ok maxRounds =>
    { notes := [note ["Maximum Repeats: ", toString maxRounds]]
      result := do
        let (play, ports) ← Play.configure site
        let (voter, votes) := Voter.unregistered.register
        return ⟨{ play, rank := site.rank, maxRounds, voter }, ports, votes⟩ }

/-- The type of initiators. -/
def type : ComponentType Ping where
  library := "pingpong"
  name := "Ping"
  description := "initiates the ping pong and decides when it ends"
  ports := Play.ports
  params := [⟨"model", "number of received messages before voting to end", "10"⟩]
  create := create

/-- Sends a message behind some log lines. -/
def send (ping : Ping) (message : String) (notes : List Note) : Reaction Ping where
  component := { ping with sent := ping.sent + 1 }
  sends := [(ping.play.output, .text message)]
  notes := notes ++ [note ["Sent message: ", message]]

/-- Begins the game. -/
def setup (ping : Ping) : Reaction Ping :=
  ping.send (ping.play.opening .initiator ping.rank) []

/-- Counts a message of a text. -/
def hear (ping : Ping) (payload : String) : Ping :=
  { ping with
    received := ping.received + 1, roundCount := ping.roundCount + 1, last := some payload }

/-- Answers a message, or votes for the end. -/
def handle (ping : Ping) (message : Message) : Reaction Ping :=
  match message.payload with
  | .error violation => { component := ping, outcome := .violated violation }
  | .ok payload =>
    let heard := ping.hear payload
    let notes :=
      [note ["Received message: ", payload], note ["Repeats: ", toString heard.roundCount]]
    if heard.maxRounds ≤ heard.roundCount then
      let (voter, votes, more) := heard.voter.signal
      { component := { heard with voter }, votes, notes := notes ++ more }
    else heard.send (ping.play.answer .initiator ping.rank payload) notes

instance : Component Ping where
  setup ping _ := ping.setup
  handle ping _ _ message := ping.handle message
  finish ping _ := { component := ping }

end Ping

end Rally
