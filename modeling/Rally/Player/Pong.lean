import Rally.Player.Play
/-!
# The responder

A responder answers every message it receives and takes no part in the vote.
-/

namespace Rally

/-- The state of a responder. -/
structure Pong where
  /-- How it is joined to others. -/
  play : Play
  /-- The rank it is placed on. -/
  rank : RankId
  /-- The messages sent. -/
  sent : Nat := 0
  /-- The messages received. -/
  received : Nat := 0
  /-- The last message received. -/
  last : Option String := none
  deriving DecidableEq

namespace Pong

/-- The target of its log lines. -/
def target : String := "pingpong::pingpong::pong"

/-- A log line. -/
def note (message : List String) : Note := ⟨.info, target, message, []⟩

/-- Creates a responder. -/
def create (site : Site) : Creation Pong site where
  result := do
    let (play, ports) ← Play.configure site
    return ⟨{ play, rank := site.rank }, ports, []⟩

/-- The type of responders. -/
def type : ComponentType Pong where
  library := "pingpong"
  name := "Pong"
  description := "answers every message"
  ports := Play.ports
  params := []
  create := create

/-- Answers a message. -/
def handle (pong : Pong) (message : Message) : Reaction Pong :=
  match message.payload with
  | .error violation => { component := pong, outcome := .violated violation }
  | .ok payload =>
    let answer := pong.play.answer .responder pong.rank payload
    { component := { pong with
        received := pong.received + 1, sent := pong.sent + 1, last := some payload }
      sends := [(pong.play.output, .text answer)]
      notes := [note ["Received message: ", payload], note ["Sent message: ", answer]] }

instance : Component Pong where
  setup pong _ := { component := pong }
  handle pong _ _ message := pong.handle message
  finish pong _ := { component := pong }

end Pong

end Rally
