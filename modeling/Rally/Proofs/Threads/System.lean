import Mathlib.Logic.Function.Basic
import Rally.Proofs.Threads.RankDeeds
/-!
# Ranks as threads

Every rank runs on a thread of its own. In each round the threads dispatch the messages of a window,
post what they laid out for other ranks, meet at a barrier, take what was posted for them, publish
their status, meet again, and read the status of all. A schedule says which thread takes the next
step; a thread that waits at a barrier has none until all have arrived. A single rank needs no
rounds: its thread dispatches until it stops, and finishes.
-/

namespace Rally

/-- The two barriers of a round. -/
inductive Gate where
  /-- The one in front of the exchange. -/
  | exchange
  /-- The one in front of the decision. -/
  | decision
  deriving DecidableEq

/-- What a thread does next. -/
inductive Phase where
  /-- It calls the setup hooks of positions. -/
  | starting (rest : List ComponentId)
  /-- It opens a window. -/
  | opening
  /-- It dispatches messages. -/
  | dispatching
  /-- It posts parcels. -/
  | posting (rest : List Parcel)
  /-- It arrives at a barrier. -/
  | arriving (gate : Gate)
  /-- It waits at a barrier that has opened so many times before. -/
  | waiting (gate : Gate) (generation : Nat)
  /-- It takes parcels out of its channel. -/
  | draining (taken : List Parcel)
  /-- It publishes its status. -/
  | publishing
  /-- It reads the status of all ranks, one after the other. -/
  | reading (read : List RankStatus)
  /-- It calls the finish hooks of positions. -/
  | finishing (reason : Termination) (rest : List ComponentId)
  /-- Nothing, since it has ended. -/
  | ended (result : Except Halt Termination)

/-- What follows behind a barrier. -/
def Gate.behind : Gate → Phase
  | exchange => .draining []
  | decision => .reading []

/-- What all threads of a run know. -/
structure Plan (n : Nat) where
  /-- The least latency between two ranks, if there are links between ranks. -/
  lookahead : Option Duration
  /-- The number of the rank on each thread. -/
  ids : Fin n → RankId

namespace Plan

variable {n : Nat} (plan : Plan n)

/-- Whether there is no thread beside a single one. -/
def alone (_ : Plan n) : Bool := decide (n ≤ 1)

/-- The thread of a rank. -/
def index? (target : RankId) : Option (Fin n) :=
  (List.finRange n).find? fun index => plan.ids index == target

/-- The end of the window that opens at an instant. -/
def bound (start : Instant) : Option Instant :=
  if plan.alone then none else plan.lookahead.map start.saturatingAdd

/-- Whether the votes of a rank alone end its window. -/
def byVote (round : Nat) : Bool :=
  if plan.alone then true else (plan.bound Instant.zero).isNone && round == 0

end Plan

/-- What a thread sees of the others. -/
structure View (n : Nat) where
  /-- How many times a barrier has opened. -/
  generation : Nat
  /-- The parcels in the channel of the thread. -/
  inbox : List Parcel
  /-- The status that each rank published last. -/
  board : Fin n → RankStatus

/-- What a step of a thread does to what threads share. -/
inductive Effect (n : Nat) where
  /-- Nothing. -/
  | idle
  /-- It puts a parcel into the channel of a thread. -/
  | post (target : Fin n) (parcel : Parcel)
  /-- It takes the first parcel out of the channel of the thread. -/
  | take
  /-- It replaces the published status of the rank. -/
  | publish (status : RankStatus)
  /-- It counts the thread at the barrier. -/
  | arrive

/-- A rank on its thread. -/
structure Thread (C : Type) where
  /-- The rank, its failure, and whether its limit was reached. -/
  worker : Worker C
  /-- What the thread does next. -/
  phase : Phase
  /-- The number of windows behind it. -/
  round : Nat := 0
  /-- Where the window begins. -/
  start : Instant := Instant.zero
  /-- The status of all ranks as it was read behind each window. -/
  minutes : List (List RankStatus) := []
  /-- What happened on the rank. -/
  history : List Deed := []

/-- The next event to dispatch and what is left behind it, or why there is none. -/
def Rank.turn {C : Type} (rank : Rank C) (bound : Option Instant) (byVote : Bool) :
    Except Stop (Scheduled Delivery × EventSet Delivery) :=
  if byVote && rank.tally.allReady then .error .voted
  else
    match rank.pending.nextTime? with
    | none => .error .idle
    | some time =>
      if bound.any (· ≤ time) then .error .idle
      else if rank.limit.applies (rank.dispatched + 1) time then .error .limitReached
      else
        match rank.pending.pop? with
        | none => .error .idle
        | some taken => .ok taken

namespace Thread

variable {C : Type}

/-- The rank of a thread. -/
def rank (thread : Thread C) : Rank C := thread.worker.rank

/-- Replaces the rank of a thread. -/
def withRank (thread : Thread C) (rank : Rank C) : Thread C :=
  { thread with worker := { thread.worker with rank } }

/-- A thread that has to do something next. -/
def goTo (thread : Thread C) (phase : Phase) : Thread C := { thread with phase }

/-- A thread on which something happened. -/
def remember (thread : Thread C) (deeds : List Deed) : Thread C :=
  { thread with history := thread.history ++ deeds }

/-- Fails a rank. -/
def fail (thread : Thread C) (error : RunError) : Thread C :=
  { thread with worker := { thread.worker with failure := some error, limitHit := false } }

/-- The positions of the components of a rank. -/
def positions (thread : Thread C) : List ComponentId := List.range thread.rank.slots.size

/-- The thread of a rank that has not been started. -/
def launch (rank : Rank C) : Thread C where
  worker := { rank := { rank with now := Instant.zero } }
  phase := .starting (List.range rank.slots.size)

/-- What follows on a failure: a rank among others still takes part in the round. -/
def halted (alone : Bool) (halt : Halt) (thread : Thread C) : Thread C :=
  if alone then thread.goTo (.ended (.error halt))
  else (thread.fail (Worker.errorOf thread.rank.id halt)).goTo (.arriving .exchange)

/-- What follows when no message is left to dispatch. -/
def stopped (alone : Bool) (stop : Stop) (thread : Thread C) : Thread C :=
  if alone then thread.goTo (.finishing (Simulation.reasonOf stop) thread.positions)
  else
    { thread with
      worker := { thread.worker with
        rank := { thread.rank with outgoing := [] }
        limitHit := stop == .limitReached }
      phase := .posting thread.rank.outgoing.reverse }

/-- Schedules the parcels taken out of the channel. -/
def schedule (taken : List Parcel) (thread : Thread C) : Thread C :=
  ((thread.withRank (thread.rank.receive taken)).remember (thread.rank.receiveDeeds taken)).goTo
    .publishing

/-- Posts the next parcel. A parcel for a rank that does not exist fails the rank. -/
def postNext {n : Nat} (plan : Plan n) (thread : Thread C) : List Parcel → Thread C × Effect n
  | [] => (thread.goTo (.arriving .exchange), .idle)
  | parcel :: rest =>
    match plan.index? parcel.target with
    | some target => (thread.goTo (.posting rest), .post target parcel)
    | none =>
      ({ thread with
        worker := { thread.worker with failure := some (.unknownRank parcel.target) }
        phase := .arriving .exchange }, .idle)

/-- Opens a window, unless the rank failed before. -/
def openWindow {n : Nat} (plan : Plan n) (thread : Thread C) : Thread C :=
  if plan.alone then thread.goTo .dispatching
  else if thread.worker.failure.isSome then
    { thread with
      worker := { thread.worker with limitHit := false }
      phase := .arriving .exchange }
  else
    let stop := ((plan.bound thread.start).getD Instant.max).label
    { thread with
      worker := thread.worker.note .trace ["window ", thread.start.label, " .. ", stop]
      phase := .dispatching }

/-- Does what follows from the status of all ranks. -/
def decide (read : List RankStatus) (thread : Thread C) : Thread C :=
  let thread := { thread with minutes := thread.minutes ++ [read] }
  match decision read with
  | .proceed next =>
    { thread with start := next, round := thread.round + 1, phase := .opening }
  | .stop reason =>
    { thread with
      worker := thread.worker.note .debug
        ["stopping after ", toString thread.round, " windows: ", reason.message]
      phase := .finishing reason thread.positions }
  | .abort =>
    thread.goTo (.ended (.error (.failed
      (thread.worker.failure.getD (.peerAborted thread.rank.id)))))

/-- Reads the next status, or decides where all are read. -/
def readNext {n : Nat} (board : Fin n → RankStatus) (read : List RankStatus)
    (thread : Thread C) : Thread C :=
  if left : read.length < n then thread.goTo (.reading (read ++ [board ⟨read.length, left⟩]))
  else thread.decide read

section Hooks

variable [Component C] {n : Nat}

/-- Calls the next setup hook. -/
def startNext (alone : Bool) (thread : Thread C) : List ComponentId → Thread C
  | [] => thread.goTo .opening
  | id :: rest =>
    let deeds := thread.rank.setupDeeds id
    match thread.rank.setup id with
    | (rank, none) => ((thread.withRank rank).remember deeds).goTo (.starting rest)
    | (rank, some halt) =>
      let thread := (thread.withRank rank).remember deeds
      if alone then thread.goTo (.ended (.error halt))
      else (thread.fail (Worker.errorOf rank.id halt)).goTo .opening

/-- Dispatches the next message of the window. -/
def dispatchNext (plan : Plan n) (thread : Thread C) : Thread C :=
  match thread.rank.turn (plan.bound thread.start) (plan.byVote thread.round) with
  | .error stop => thread.stopped plan.alone stop
  | .ok (event, pending) =>
    let deeds := thread.rank.dispatchDeeds event pending
    match Rank.dispatch event { thread.rank with pending } with
    | (rank, none) => (thread.withRank rank).remember deeds
    | (rank, some halt) => ((thread.withRank rank).remember deeds).halted plan.alone halt

/-- Calls the next finish hook. -/
def finishNext (reason : Termination) (thread : Thread C) : List ComponentId → Thread C
  | [] => thread.goTo (.ended (.ok reason))
  | id :: rest =>
    match thread.rank.finishOne id with
    | (rank, none) => (thread.withRank rank).goTo (.finishing reason rest)
    | (rank, some halt) => (thread.withRank rank).goTo (.ended (.error halt))

/-- The next step of a thread, if it has one, and what it does to what threads share. -/
def step (plan : Plan n) (view : View n) (thread : Thread C) : Option (Thread C × Effect n) :=
  match thread.phase with
  | .starting rest => some (thread.startNext plan.alone rest, .idle)
  | .opening => some (thread.openWindow plan, .idle)
  | .dispatching => some (thread.dispatchNext plan, .idle)
  | .posting rest => some (thread.postNext plan rest)
  | .arriving gate => some (thread.goTo (.waiting gate view.generation), .arrive)
  | .waiting gate generation =>
    if view.generation = generation then none else some (thread.goTo gate.behind, .idle)
  | .draining taken =>
    match view.inbox with
    | [] => some (thread.schedule taken, .idle)
    | parcel :: _ => some (thread.goTo (.draining (taken ++ [parcel])), .take)
  | .publishing => some (thread.goTo (.arriving .decision), .publish thread.worker.status)
  | .reading read => some (thread.readNext view.board read, .idle)
  | .finishing reason rest => some (thread.finishNext reason rest, .idle)
  | .ended _ => none

end Hooks

/-- The result of a rank among others whose thread has ended. -/
def result? (thread : Thread C) : Option (Except RunError Termination) :=
  match thread.phase with
  | .ended result => some (result.mapError (Worker.errorOf thread.rank.id))
  | _ => none

end Thread

/-- The status that a rank shows before it publishes one. -/
def RankStatus.blank : RankStatus := ⟨none, 0, 0, false, false⟩

/-- The threads of a run and what they share. -/
structure System (C : Type) (n : Nat) where
  /-- The threads. -/
  threads : Fin n → Thread C
  /-- The channel to each thread, the oldest parcel first. -/
  channels : Fin n → List Parcel := fun _ => []
  /-- The published status of each rank. -/
  board : Fin n → RankStatus := fun _ => .blank
  /-- The number of threads at the barrier. -/
  arrived : Nat := 0
  /-- How many times the barrier has opened. -/
  generation : Nat := 0
  /-- All that was ever posted to each thread, with the round of the sender. -/
  posted : Fin n → List (Nat × Parcel) := fun _ => []
  /-- All that each thread ever took, with its round. -/
  drained : Fin n → List (Nat × Parcel) := fun _ => []

namespace System

variable {C : Type} {n : Nat}

/-- What a thread sees. -/
def view (system : System C n) (index : Fin n) : View n :=
  ⟨system.generation, system.channels index, system.board⟩

/-- Changes what the threads share by the effect of a step of one of them. -/
def apply (index : Fin n) (effect : Effect n) (system : System C n) : System C n :=
  let round := (system.threads index).round
  match effect with
  | .idle => system
  | .post target parcel =>
    { system with
      channels := Function.update system.channels target (system.channels target ++ [parcel])
      posted := Function.update system.posted target (system.posted target ++ [(round, parcel)]) }
  | .take =>
    { system with
      channels := Function.update system.channels index (system.channels index).tail
      drained := Function.update system.drained index (system.drained index ++
        (system.channels index).head?.toList.map fun parcel => (round, parcel)) }
  | .publish status => { system with board := Function.update system.board index status }
  | .arrive =>
    if system.arrived + 1 < n then { system with arrived := system.arrived + 1 }
    else { system with arrived := 0, generation := system.generation + 1 }

/-- Replaces a thread. -/
def withThread (index : Fin n) (thread : Thread C) (system : System C n) : System C n :=
  { system with threads := Function.update system.threads index thread }

/-- The result of a run on several ranks whose threads have all ended. -/
def verdict? (system : System C n) : Option (Except RunError Termination) :=
  ((List.ofFn system.threads).mapM Thread.result?).map Windows.verdict

variable [Component C]

/-- A step of one thread, if it has one. -/
def step (plan : Plan n) (index : Fin n) (system : System C n) : Option (System C n) :=
  ((system.threads index).step plan (system.view index)).map fun (thread, effect) =>
    (system.apply index effect).withThread index thread

/-- The steps of a schedule, if each of its threads has one when it is its turn. -/
def exec (plan : Plan n) : List (Fin n) → System C n → Option (System C n)
  | [], system => some system
  | index :: rest, system => (system.step plan index).bind (exec plan rest)

end System

namespace Simulation

variable {C : Type}

/-- What the threads of a simulation know. -/
def plan (simulation : Simulation C) : Plan simulation.ranks.length where
  lookahead := simulation.lookahead
  ids index := (simulation.ranks.get index).id

/-- The threads of a simulation before their first steps. -/
def launch (filter : Filter) (simulation : Simulation C) :
    System C simulation.ranks.length where
  threads index := .launch (logged filter (simulation.ranks.get index))

end Simulation

end Rally
