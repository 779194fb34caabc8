import Rally.Simulation.Build
import Rally.Simulation.Report
/-!
# Running a simulation

A single rank runs until its voters are ready, nothing is left, or the limit forbids the next
message. Several ranks run in windows, one after the other within each, since no message sent in a
window matters to another rank before its end. A run prints a banner at its start and its end.
-/

namespace Rally

/-- What a run did. -/
structure RunResult (C : Type) where
  /-- What was printed at the start. -/
  opening : String
  /-- The log lines, rank by rank. -/
  records : List Record
  /-- What was printed at the end. -/
  closing : String
  /-- The simulated time of whoever asked for the run. -/
  clock : Instant
  /-- The report, or why there is none. -/
  outcome : Except Halt (Report C)

namespace Simulation

variable {C : Type}

/-- Lines behind a bracket that spans them. -/
def bracketed (lines : List String) : String :=
  "⎡\n" ++ String.join (lines.map fun line => "⎢ " ++ line ++ "\n") ++ "⎣\n"

/-- What a run prints at its start. -/
def opening (simulation : Simulation C) : String :=
  if simulation.quiet then ""
  else
    let lookahead := lookaheadText simulation.lookahead id "none"
    bracketed ["Simulation starting",
      s!" Ranks := {simulation.ranks.length} (lookahead {lookahead})",
      " Executor := FutureEventSet::BinaryHeap()",
      s!" Event limit := {simulation.limit.text}"]

/-- What a run prints at its end. -/
def closing (simulation : Simulation C) (report : Report C) : String :=
  if simulation.quiet then ""
  else
    bracketed [s!"Simulation ended ({report.reason.message})",
      s!" Ended at event #{report.events} after {report.endTime.label}"]

/-- The log lines of ranks, one after the other. -/
def recordsOf (ranks : List (Rank C)) : List Record :=
  ranks.flatMap fun rank => rank.journal.records.toList

/-- The reason that ends the run of a single rank. -/
def reasonOf : Stop → Termination
  | .voted => .allVotersReady
  | .idle => .eventsExhausted
  | .limitReached => .limitReached

variable [Component C]

/-- Runs a single rank. -/
def runSingle (fuel : Nat) (rank : Rank C) : Option (Rank C × Except Halt Termination) :=
  match rank.start with
  | (rank, some halt) => some (rank, .error halt)
  | (rank, none) =>
    match rank.dispatchUntil none true fuel with
    | none => none
    | some (rank, .error halt) => some (rank, .error halt)
    | some (rank, .ok stop) =>
      match rank.finish with
      | (rank, some halt) => some (rank, .error halt)
      | (rank, none) => some (rank, .ok (reasonOf stop))

/-- Runs several ranks in windows. -/
def runWindows (fuel : Nat) (lookahead : Option Duration) (ranks : List (Rank C)) :
    Option (List (Rank C) × Except RunError Termination) :=
  match Windows.run lookahead fuel 0 Instant.zero (ranks.map Worker.ofRank) with
  | none => none
  | some (workers, decision, windows) =>
    let ended := workers.map (Windows.conclude decision windows)
    some (ended.map fun (worker, _) => worker.rank, Windows.verdict (ended.map Prod.snd))

/-- Keeps the log lines of a rank that a filter admits. -/
def logged (filter : Filter) (rank : Rank C) : Rank C := { rank with journal := ⟨filter, #[]⟩ }

/-- Runs a simulation. There is no result if some rank dispatches more messages than there is fuel,
or there are more windows. A run on one rank sets the clock of whoever asked for it. -/
def run (fuel : Nat) (filter : Filter) (clock : Instant) (simulation : Simulation C) :
    Option (RunResult C) :=
  let opening := simulation.opening
  let result (ranks : List (Rank C)) (clock : Instant) (reason : Except Halt Termination) :
      RunResult C :=
    let outcome := reason.map fun reason => Report.ofRanks reason ranks
    let closing := match outcome with
      | .ok report => simulation.closing report
      | .error _ => ""
    { opening, records := recordsOf ranks, closing, clock, outcome }
  match simulation.ranks.map (logged filter) with
  | [] => some (result [] clock (.ok .eventsExhausted))
  | [rank] =>
    (runSingle fuel rank).map fun (rank, reason) => result [rank] rank.now reason
  | ranks =>
    (runWindows fuel simulation.lookahead ranks).map fun (ranks, reason) =>
      result ranks clock (reason.mapError .failed)

end Simulation

end Rally
