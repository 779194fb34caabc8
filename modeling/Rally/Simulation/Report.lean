import Rally.Simulation.Window
/-!
# Reports

A report tells why a run ended, what each rank did, what each link carried, and leaves the
components as they ended. Counters of links are summed over the ranks.
-/

namespace Rally

/-- What a rank did. -/
structure RankReport where
  /-- The rank. -/
  rank : RankId
  /-- The messages it dispatched. -/
  events : Nat
  /-- The messages left undispatched. -/
  pending : Nat
  /-- The time of the last message dispatched. -/
  endTime : Instant
  /-- Its voters. -/
  participants : Nat
  /-- Its voters that are ready. -/
  ready : Nat
  deriving DecidableEq

/-- The result of a run. -/
structure Report (C : Type) where
  /-- Why the run ended. -/
  reason : Termination
  /-- What each rank did, in ascending order. -/
  ranks : List RankReport
  /-- What each link carried, in the order of definition. -/
  links : List Traffic
  /-- The components in the order of registration. -/
  components : List (String × C)

namespace RankReport

/-- The report about a rank. -/
def ofRank {C : Type} (rank : Rank C) : RankReport where
  rank := rank.id
  events := rank.dispatched
  pending := rank.pending.size
  endTime := rank.lastTime
  participants := rank.tally.participants
  ready := rank.tally.ready

/-- The report about a rank in words. -/
def inspect (report : RankReport) : String :=
  "RankReport \x7b rank: Rank(" ++ toString report.rank ++ "), events: " ++
    toString report.events ++ ", pending: " ++ toString report.pending ++ ", end_time: " ++
    report.endTime.text ++ ", participants: " ++ toString report.participants ++ ", ready: " ++
    toString report.ready ++ " \x7d"

end RankReport

namespace Report

variable {C : Type}

/-- The time of the last message dispatched on any rank. -/
def endTime (report : Report C) : Instant :=
  (report.ranks.map RankReport.endTime).foldl max Instant.zero

/-- The messages dispatched on all ranks. -/
def events (report : Report C) : Nat := (report.ranks.map RankReport.events).foldl (· + ·) 0

/-- The messages handed to links. -/
def messagesSent (report : Report C) : Nat := (report.links.map Traffic.sent).foldl (· + ·) 0

/-- The messages handed to components. -/
def messagesDelivered (report : Report C) : Nat :=
  (report.links.map Traffic.delivered).foldl (· + ·) 0

/-- What the link of a name carried. -/
def link? (report : Report C) (name : String) : Option Traffic :=
  report.links.find? fun traffic => traffic.name == name

/-- The component of a name. -/
def component? (report : Report C) (name : String) : Option C :=
  (report.components.find? fun (n, _) => n == name).map Prod.snd

/-- The counters of two ranks together, link by link. -/
def mergeTraffic (x y : List Traffic) : List Traffic :=
  if x.isEmpty then y else x.zipWith Traffic.add y

/-- The components of a position on any rank. -/
def mergeSlots (x y : List (Option (Slot C))) : List (Option (Slot C)) :=
  if x.isEmpty then y else x.zipWith (fun former slot => slot.or former) y

/-- The report about the ranks of a run. -/
def ofRanks (reason : Termination) (ranks : List (Rank C)) : Report C where
  reason := reason
  ranks := ranks.map RankReport.ofRank
  links := ranks.foldl (fun links rank => mergeTraffic links rank.traffic.toList) []
  components :=
    (ranks.foldl (fun slots rank => mergeSlots slots rank.slots.toList) []).filterMap fun slot =>
      slot.map fun slot => (slot.name, slot.component)

/-- The name of a termination. -/
def reasonName : Termination → String
  | .allVotersReady => "AllVotersReady"
  | .eventsExhausted => "EventsExhausted"
  | .limitReached => "LimitReached"

/-- A report in words. -/
def inspect (report : Report C) : String :=
  "SimReport \x7b end_time: " ++ report.endTime.text ++ ", reason: " ++ reasonName report.reason ++
    ", events: " ++ toString report.events ++ ", ranks: " ++
    ComponentType.listed (report.ranks.map RankReport.inspect) ++ ", links: " ++
    ComponentType.listed (report.links.map Traffic.inspect) ++ ", .. \x7d"

end Report

end Rally
