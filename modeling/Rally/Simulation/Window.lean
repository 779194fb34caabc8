import Rally.Simulation.Rank
/-!
# Running several ranks in windows

Ranks advance together through windows of simulated time. A window is no longer than the least
latency between two ranks, so a message sent to another rank in a window is due behind its end.
Between two windows the ranks exchange such messages, and decide from the status of all of them
whether to go on, and from when.
-/

namespace Rally

/-- Why a run ended. -/
inductive Termination where
  /-- All voters are ready. -/
  | allVotersReady
  /-- No message is left on any rank. -/
  | eventsExhausted
  /-- The limit forbids the next message. -/
  | limitReached
  deriving DecidableEq, Inhabited

/-- The wording of a termination. -/
def Termination.message : Termination → String
  | .allVotersReady => "all voters ready"
  | .eventsExhausted => "events exhausted"
  | .limitReached => "limit reached"

/-- What a rank publishes between two windows. -/
structure RankStatus where
  /-- The time of its next message. -/
  next : Option Instant
  /-- Its voters. -/
  participants : Nat
  /-- Its voters that are ready. -/
  ready : Nat
  /-- Whether it failed. -/
  failed : Bool
  /-- Whether its limit was reached. -/
  limitHit : Bool
  deriving DecidableEq

/-- What all ranks do after a window. -/
inductive Decision where
  /-- They go on at an instant. -/
  | proceed (start : Instant)
  /-- They end the run. -/
  | stop (reason : Termination)
  /-- They give up, since one of them failed. -/
  | abort
  deriving DecidableEq

/-- The decision that follows from the status of all ranks. -/
def decision (statuses : List RankStatus) : Decision :=
  -- folds, since the zero from which `List.sum` starts depends on what is imported
  let participants := (statuses.map RankStatus.participants).foldl (· + ·) 0
  let ready := (statuses.map RankStatus.ready).foldl (· + ·) 0
  if statuses.any RankStatus.failed then .abort
  else if 0 < participants ∧ ready = participants then .stop .allVotersReady
  else
    match (statuses.filterMap RankStatus.next).min? with
    | none => .stop .eventsExhausted
    | some next =>
      if statuses.any RankStatus.limitHit then .stop .limitReached else .proceed next

/-- A rank that runs in windows. -/
structure Worker (C : Type) where
  /-- The rank. -/
  rank : Rank C
  /-- Why it failed, if it did. -/
  failure : Option RunError := none
  /-- Whether the last window ended at the limit. -/
  limitHit : Bool := false

namespace Worker

variable {C : Type}

/-- The target of the log lines about windows. -/
def target : String := "pingpong::runtime::par"

/-- Writes a log line about a rank. -/
def note (worker : Worker C) (level : Level) (message : List String) : Worker C :=
  let rank := worker.rank
  let fields := [("rank", toString rank.id)]
  let journal := rank.journal.add rank.now none ⟨level, target, message, fields⟩
  { worker with rank := { rank with journal } }

/-- The error that a failure of a rank amounts to. -/
def errorOf (rank : RankId) : Halt → RunError
  | .failed error => error
  | .panicked panic => .rankPanicked rank panic.message

section Hooks

variable [Component C]

/-- Starts a rank. -/
def ofRank (rank : Rank C) : Worker C :=
  let (rank, halt) := rank.start
  { rank, failure := halt.map (errorOf rank.id) }

/-- Dispatches the messages of a window, unless the rank failed before. -/
def advance (fuel : Nat) (start : Instant) (bound : Option Instant) (byVote : Bool)
    (worker : Worker C) : Option (Worker C) :=
  if worker.failure.isSome then some { worker with limitHit := false }
  else
    let stop := (bound.getD Instant.max).label
    let worker := worker.note .trace ["window ", start.label, " .. ", stop]
    match worker.rank.dispatchUntil bound byVote fuel with
    | none => none
    | some (rank, .ok stop) => some { worker with rank, limitHit := stop == .limitReached }
    | some (rank, .error halt) =>
      some { rank, failure := some (errorOf rank.id halt), limitHit := false }

/-- Finishes a rank behind the last window. -/
def finish (windows : Nat) (reason : Termination) (worker : Worker C) :
    Worker C × Except RunError Termination :=
  let worker :=
    worker.note .debug ["stopping after ", toString windows, " windows: ", reason.message]
  match worker.rank.finish with
  | (rank, none) => ({ worker with rank }, .ok reason)
  | (rank, some halt) => ({ worker with rank }, .error (errorOf rank.id halt))

end Hooks

/-- The parcels up to the first one for an unknown rank, and that rank. -/
def shippable (known : List RankId) : List Parcel → List Parcel × Option RankId
  | [] => ([], none)
  | parcel :: rest =>
    if known.contains parcel.target then
      let (others, stray) := shippable known rest
      (parcel :: others, stray)
    else ([], some parcel.target)

/-- Takes the parcels out of a rank that did not fail. -/
def ship (known : List RankId) (worker : Worker C) : Worker C × List Parcel :=
  if worker.failure.isSome then (worker, [])
  else
    let (parcels, stray) := shippable known worker.rank.outgoing.reverse
    ({ worker with rank := { worker.rank with outgoing := [] }, failure := stray.map .unknownRank },
      parcels)

/-- Hands a rank the parcels that are for it. -/
def collect (parcels : List Parcel) (worker : Worker C) : Worker C :=
  let own := parcels.filter fun parcel => parcel.target == worker.rank.id
  { worker with rank := worker.rank.receive own }

/-- What a rank publishes. -/
def status (worker : Worker C) : RankStatus where
  next := worker.rank.pending.nextTime?
  participants := worker.rank.tally.participants
  ready := worker.rank.tally.ready
  failed := worker.failure.isSome
  limitHit := worker.limitHit

end Worker

namespace Windows

variable {C : Type}

/-- The exchange between two windows: all ranks give away their parcels, then take their own. -/
def exchange (workers : List (Worker C)) : List (Worker C) :=
  let known := workers.map fun worker => worker.rank.id
  let shipped := workers.map (Worker.ship known)
  let parcels := shipped.flatMap Prod.snd
  shipped.map fun (worker, _) => worker.collect parcels

variable [Component C]

/-- One window and the exchange behind it. Without links between ranks there is no need for windows:
the first one has no end, and each rank may stop it by vote. -/
def window (fuel : Nat) (lookahead : Option Duration) (round : Nat) (start : Instant)
    (workers : List (Worker C)) : Option (List (Worker C)) :=
  let bound := lookahead.map start.saturatingAdd
  let byVote := bound.isNone && round == 0
  (workers.mapM (Worker.advance fuel start bound byVote)).map exchange

/-- Runs windows until a decision ends the run: the ranks, the decision, and the number of windows
before the last one. -/
def run (lookahead : Option Duration) :
    Nat → Nat → Instant → List (Worker C) → Option (List (Worker C) × Decision × Nat)
  | 0, _, _, _ => none
  | fuel + 1, round, start, workers =>
    match window fuel lookahead round start workers with
    | none => none
    | some workers =>
      match decision (workers.map Worker.status) with
      | .proceed next => run lookahead fuel (round + 1) next workers
      | decision => some (workers, decision, round)

/-- Ends the run of each rank: behind a common reason its components finish, and otherwise its
failure, or that of another rank, is the result. -/
def conclude (decision : Decision) (windows : Nat) (worker : Worker C) :
    Worker C × Except RunError Termination :=
  match decision with
  | .stop reason => worker.finish windows reason
  | _ => (worker, .error (worker.failure.getD (.peerAborted worker.rank.id)))

/-- Whether an error only tells that another rank failed. -/
def isSecondary : RunError → Bool
  | .peerAborted _ => true
  | _ => false

/-- The result of a run from those of its ranks: the first failure of a rank of its own, else that
some rank gave up, else the common reason. -/
def verdict (results : List (Except RunError Termination)) : Except RunError Termination :=
  let errors := results.filterMap fun
    | .error error => some error
    | .ok _ => none
  match errors.find? fun error => !isSecondary error with
  | some error => .error error
  | none =>
    match errors.getLast? with
    | some error => .error error
    | none =>
      let reasons := results.filterMap Except.toOption
      .ok (reasons.getLast?.getD .eventsExhausted)

end Windows

end Rally
