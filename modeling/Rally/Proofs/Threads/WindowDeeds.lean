import Rally.Proofs.Threads.StepCases
/-!
# The deeds of a run in windows

A run in windows lets the ranks act one after the other inside each window. Its account tells the
deeds of each rank in this order; it is read off beside the run, by functions of the same shape.
-/

namespace Rally

namespace Rank

variable {C : Type} [Component C]

/-- The deeds of the setup of some positions. -/
def setupAllDeeds : List ComponentId → Rank C → List Deed
  | [], _ => []
  | id :: rest, rank =>
    rank.setupDeeds id ++
      match setup id rank with
      | (rank, none) => setupAllDeeds rest rank
      | (_, some _) => []

/-- The deeds of the start of a rank. -/
def startDeeds (rank : Rank C) : List Deed :=
  setupAllDeeds (List.range rank.slots.size) { rank with now := Instant.zero }

/-- The deeds of dispatching messages. -/
def untilDeeds (bound : Option Instant) (byVote : Bool) : Nat → Rank C → List Deed
  | 0, _ => []
  | fuel + 1, rank =>
    match rank.turn bound byVote with
    | .error _ => []
    | .ok (event, pending) =>
      rank.dispatchDeeds event pending ++
        match dispatch event { rank with pending } with
        | (rank, none) => untilDeeds bound byVote fuel rank
        | (_, some _) => []

/-- A rank that dispatches takes its next turn, and goes on behind it. -/
theorem dispatchUntil_succ (bound : Option Instant) (byVote : Bool) (fuel : Nat) (rank : Rank C) :
    rank.dispatchUntil bound byVote (fuel + 1) =
      match rank.turn bound byVote with
      | .error stop => some (rank, .ok stop)
      | .ok (event, pending) =>
        match dispatch event { rank with pending } with
        | (rank, none) => rank.dispatchUntil bound byVote fuel
        | (rank, some halt) => some (rank, .error halt) := by
  rw [dispatchUntil, turn]
  by_cases voted : (byVote && rank.tally.allReady) = true
  · rw [if_pos voted, if_pos voted]
  · rw [if_neg voted, if_neg voted]
    cases rank.pending.nextTime? with
    | none => rfl
    | some time =>
      simp only
      by_cases late : bound.any (· ≤ time) = true
      · rw [if_pos late, if_pos late]
      · rw [if_neg late, if_neg late]
        by_cases limited : rank.limit.applies (rank.dispatched + 1) time = true
        · rw [if_pos limited, if_pos limited]
        · rw [if_neg limited, if_neg limited]
          cases rank.pending.pop? <;> rfl

variable {P : Rank C → Prop} {rank last : Rank C}

/-- What each setup hook keeps is kept by all of them, up to the first failure. -/
theorem start_keeps (each : ∀ id rank, P rank → P (setup id rank).1)
    (holds : P { rank with now := Instant.zero }) : P rank.start.1 := by
  rw [start]
  generalize List.range rank.slots.size = ids
  generalize { rank with now := Instant.zero } = rank at holds
  induction ids generalizing rank with
  | nil => exact holds
  | cons id rest ih =>
    have here := each id rank holds
    rw [setupAll]
    cases called : setup id rank with
    | mk middle halt =>
      rw [called] at here
      cases halt with
      | none => exact ih middle here
      | some halt => exact here

/-- What each finish hook keeps is kept by all of them, up to the first that breaks off. -/
theorem finish_keeps (each : ∀ id rank, P rank → P (finishOne id rank).1) (holds : P rank) :
    P rank.finish.1 := by
  rw [finish]
  generalize List.range rank.slots.size = ids
  induction ids generalizing rank with
  | nil => exact holds
  | cons id rest ih =>
    have here := each id rank holds
    rw [finishAll]
    cases called : finishOne id rank with
    | mk middle halt =>
      rw [called] at here
      cases halt with
      | none => exact ih here
      | some halt => exact here

/-- What the dispatch of the next message keeps is kept by a window. -/
theorem dispatchUntil_keeps {bound : Option Instant} {byVote : Bool} {fuel : Nat}
    {ending : Except Halt Stop} (each : ∀ rank event pending, P rank →
      rank.turn bound byVote = .ok (event, pending) → P (dispatch event { rank with pending }).1)
    (holds : P rank) (runs : rank.dispatchUntil bound byVote fuel = some (last, ending)) : P last := by
  induction fuel generalizing rank with
  | zero => cases runs
  | succ fuel ih =>
    rw [dispatchUntil_succ] at runs
    cases turn : rank.turn bound byVote with
    | error stop =>
      rw [turn] at runs
      cases runs
      exact holds
    | ok taken =>
      obtain ⟨event, pending⟩ := taken
      have here := each rank event pending holds turn
      rw [turn] at runs
      dsimp only at runs
      cases called : dispatch event { rank with pending } with
      | mk middle halt =>
        rw [called] at runs here
        cases halt with
        | none => exact ih here runs
        | some halt =>
          cases runs
          exact here

end Rank

namespace Worker

variable {C : Type} [Component C]

/-- The deeds of a rank in a window. -/
def advanceDeeds (fuel : Nat) (start : Instant) (bound : Option Instant) (byVote : Bool)
    (worker : Worker C) : List Deed :=
  if worker.failure.isSome then []
  else
    let stop := (bound.getD Instant.max).label
    (worker.note .trace ["window ", start.label, " .. ", stop]).rank.untilDeeds bound byVote fuel

end Worker

namespace Windows

variable {C : Type}

/-- The deeds of each rank in an exchange. -/
def exchangeDeeds (workers : List (Worker C)) : List (List Deed) :=
  let shipped := workers.map (Worker.ship (workers.map fun worker => worker.rank.id))
  let parcels := shipped.flatMap Prod.snd
  shipped.map fun (worker, _) =>
    worker.rank.receiveDeeds (parcels.filter fun parcel => parcel.target == worker.rank.id)

variable [Component C]

/-- The deeds of each rank in a window and the exchange behind it. -/
def windowDeeds (fuel : Nat) (lookahead : Option Duration) (round : Nat) (start : Instant)
    (workers : List (Worker C)) : List (List Deed) :=
  let bound := lookahead.map start.saturatingAdd
  let byVote := bound.isNone && round == 0
  List.zipWith (· ++ ·) (workers.map (Worker.advanceDeeds fuel start bound byVote))
    (((workers.mapM (Worker.advance fuel start bound byVote)).map exchangeDeeds).getD [])

/-- The deeds of each rank in the windows of a run. -/
def runDeeds (lookahead : Option Duration) :
    Nat → Nat → Instant → List (Worker C) → List (List Deed)
  | 0, _, _, _ => []
  | fuel + 1, round, start, workers =>
    match window fuel lookahead round start workers with
    | none => []
    | some next =>
      match decision (next.map Worker.status) with
      | .proceed later =>
        List.zipWith (· ++ ·) (windowDeeds fuel lookahead round start workers)
          (runDeeds lookahead fuel (round + 1) later next)
      | _ => windowDeeds fuel lookahead round start workers

variable {fuel round : Nat} {lookahead : Option Duration} {start : Instant}
  {workers next : List (Worker C)}

/-- Behind a window, the ranks go on as they decide. -/
theorem run_of_proceed (moved : window fuel lookahead round start workers = some next)
    {later : Instant} (decided : decision (next.map Worker.status) = .proceed later) :
    run lookahead (fuel + 1) round start workers = run lookahead fuel (round + 1) later next ∧
      runDeeds lookahead (fuel + 1) round start workers =
        List.zipWith (· ++ ·) (windowDeeds fuel lookahead round start workers)
          (runDeeds lookahead fuel (round + 1) later next) := by
  rw [run, runDeeds, moved]
  simp only [decided, and_self]

/-- Behind a window, the ranks come to an end as they decide. -/
theorem run_of_leaves (moved : window fuel lookahead round start workers = some next)
    (leaves : ∀ later, decision (next.map Worker.status) ≠ .proceed later) :
    run lookahead (fuel + 1) round start workers =
        some (next, decision (next.map Worker.status), round) ∧
      runDeeds lookahead (fuel + 1) round start workers =
        windowDeeds fuel lookahead round start workers := by
  rw [run, runDeeds, moved]
  cases decided : decision (next.map Worker.status) with
  | proceed later => exact absurd decided (leaves later)
  | stop | abort => simp only [decided, and_self]

end Windows

namespace Simulation

variable {C : Type} [Component C]

/-- The deeds of each of several ranks that run in windows. -/
def account (fuel : Nat) (lookahead : Option Duration) (ranks : List (Rank C)) :
    List (List Deed) :=
  List.zipWith (· ++ ·) (ranks.map Rank.startDeeds)
    (Windows.runDeeds lookahead fuel 0 Instant.zero (ranks.map Worker.ofRank))

end Simulation

end Rally
