import Rally.Log.Record
/-!
# Votes for the end of a run

A component takes part in the decision to end a run through voters. A voter registers once, may
then signal once that it is ready, and never takes either back. The tally of a rank counts the
voters that registered and those that are ready.
-/

namespace Rally

/-- What a voter adds to the tally. -/
inductive Vote where
  /-- It takes part. -/
  | join
  /-- It is ready for the end. -/
  | ready
  deriving DecidableEq

/-- The votes of one rank. -/
structure Tally where
  /-- Voters that take part. -/
  participants : Nat := 0
  /-- Voters that are ready. -/
  ready : Nat := 0
  deriving DecidableEq, Inhabited

namespace Tally

/-- Counts a vote. -/
def count (tally : Tally) : Vote → Tally
  | .join => { tally with participants := tally.participants + 1 }
  | .ready => { tally with ready := tally.ready + 1 }

/-- Counts votes. -/
def countAll (tally : Tally) (votes : List Vote) : Tally := votes.foldl count tally

/-- Whether somebody takes part and everybody who does is ready. -/
def allReady (tally : Tally) : Bool := 0 < tally.participants && tally.ready == tally.participants

end Tally

/-- A handle with which a component votes. -/
inductive Voter where
  /-- It takes no part. -/
  | unregistered
  /-- It takes part and is not ready. -/
  | voting
  /-- It is ready. -/
  | ready
  deriving DecidableEq, Inhabited

namespace Voter

/-- The target of the log lines about votes. -/
def target : String := "pingpong::runtime::voter"

/-- Whether a voter takes part. -/
def isParticipant : Voter → Bool
  | .unregistered => false
  | _ => true

/-- Whether a voter is ready. -/
def isReady : Voter → Bool
  | .ready => true
  | _ => false

/-- Registers a voter; it joins the tally the first time. -/
def register : Voter → Voter × List Vote
  | .unregistered => (.voting, [.join])
  | voter => (voter, [])

/-- Signals that a voter is ready; it counts once, and only for a voter that takes part. -/
def signal : Voter → Voter × List Vote × List Note
  | .voting =>
    (.ready, [.ready], [⟨.debug, target, ["vote cast, ready to end the simulation"], []⟩])
  | .ready => (.ready, [], [])
  | .unregistered =>
    (.unregistered, [], [⟨.warn, target,
      ["ignoring termination signal of a component that is not a voting participant"], []⟩])

end Voter

end Rally
