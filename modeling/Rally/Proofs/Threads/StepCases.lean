import Rally.Proofs.Queue.EntryOrder
import Rally.Proofs.Threads.System
/-!
# The moves of a thread

Where a thread is says what it does next. These steps are told apart once, and all else that is said of
a step is said by cases on them. Within a window, whatever a rank does is a course of acts; outside of it
each move is spelled out. What holds of all threads is proved by cases on these moves.
-/

namespace Rally

namespace Phase

/-- Whether a thread has hooks to call before the exchange. -/
def inWindow : Phase → Prop
  | starting _ | opening | dispatching => True
  | _ => False

/-- Whether a thread has left its rounds. -/
def isOver : Phase → Prop
  | finishing _ _ | ended _ => True
  | _ => False

/-- Whether a thread has setup hooks to call. -/
def isStarting : Phase → Prop
  | starting _ => True
  | _ => False

/-- A thread calls its setup hooks within its window. -/
theorem inWindow_of_isStarting {phase : Phase} (starting : phase.isStarting) : phase.inWindow := by
  cases phase with
  | starting rest => trivial
  | _ => exact starting.elim

end Phase

namespace Rank

/-- What a rank does next, and why. -/
inductive Turns {C : Type} (rank : Rank C) (bound : Option Instant) (byVote : Bool) :
    Except Stop (Scheduled Delivery × EventSet Delivery) → Prop where
  /-- It stops by vote: it may, and all of its voters are ready. -/
  | voted (may : byVote = true) (ready : rank.tally.allReady = true) :
      Turns rank bound byVote (.error .voted)
  /-- It stops since no event waits. -/
  | idle (waits : byVote = true → rank.tally.allReady = false) (none : rank.pending.pop? = none) :
      Turns rank bound byVote (.error .idle)
  /-- It stops since the next event is not due before the bound. -/
  | late (waits : byVote = true → rank.tally.allReady = false) {event : Scheduled Delivery}
      {pending : EventSet Delivery} (popped : rank.pending.pop? = some (event, pending))
      {last : Instant} (ends : bound = some last) (late : last ≤ event.time) :
      Turns rank bound byVote (.error .idle)
  /-- It stops since its limit forbids the next event. -/
  | limited (waits : byVote = true → rank.tally.allReady = false) {event : Scheduled Delivery}
      {pending : EventSet Delivery} (popped : rank.pending.pop? = some (event, pending))
      (early : ∀ last, bound = some last → event.time < last)
      (forbids : rank.limit.applies (rank.dispatched + 1) event.time = true) :
      Turns rank bound byVote (.error .limitReached)
  /-- It takes the next event. -/
  | goes (waits : byVote = true → rank.tally.allReady = false) {event : Scheduled Delivery}
      {pending : EventSet Delivery} (popped : rank.pending.pop? = some (event, pending))
      (early : ∀ last, bound = some last → event.time < last)
      (allows : rank.limit.applies (rank.dispatched + 1) event.time = false) :
      Turns rank bound byVote (.ok (event, pending))

/-- A rank has one of these reasons for what it does next. -/
theorem turns_turn {C : Type} (rank : Rank C) (bound : Option Instant) (byVote : Bool) :
    rank.Turns bound byVote (rank.turn bound byVote) := by
  rw [turn, EventSet.nextTime?_eq]
  split
  · next all =>
    obtain ⟨may, ready⟩ := Bool.and_eq_true_iff.mp all
    exact .voted may ready
  · next free =>
    have waits (may : byVote = true) : rank.tally.allReady = false := by
      rwa [may, Bool.true_and, Bool.not_eq_true] at free
    cases popped : rank.pending.pop? with
    | none => exact .idle waits popped
    | some taken =>
      obtain ⟨event, pending⟩ := taken
      simp only [Option.map_some]
      split
      · next beyond =>
        cases bound with
        | none => cases beyond
        | some last => exact .late waits popped rfl (of_decide_eq_true beyond)
      · next inside =>
        have early : ∀ last, bound = some last → event.time < last := by
          rintro last rfl
          rw [Option.any_some, decide_eq_true_eq] at inside
          exact not_le.mp inside
        split
        · next forbids => exact .limited waits popped early forbids
        · next allows => exact .goes waits popped early (Bool.not_eq_true _ ▸ allows)

/-- A rank that goes on takes its next event, which is due before the bound. -/
theorem turn_ok {C : Type} {rank : Rank C} {bound : Option Instant} {byVote : Bool}
    {event : Scheduled Delivery} {pending : EventSet Delivery}
    (goes : rank.turn bound byVote = .ok (event, pending)) :
    rank.pending.pop? = some (event, pending) ∧ ∀ last, bound = some last → event.time < last := by
  have turns := rank.turns_turn bound byVote
  rw [goes] at turns
  cases turns with
  | goes _ popped early => exact ⟨popped, early⟩

/-- A finish hook does not fail but by breaking off. -/
theorem panicked_of_finishOne {C : Type} [Component C] {id : ComponentId} {rank last : Rank C}
    {halt : Halt} (called : rank.finishOne id = (last, some halt)) :
    ∃ panic, halt = .panicked panic := by
  rw [finishOne] at called
  cases owned : rank.slot? id with
  | none =>
    rw [owned] at called
    cases called
  | some slot =>
    simp only [owned] at called
    split at called
    · next panic _ =>
      cases called
      exact ⟨panic, rfl⟩
    · split at called <;> cases called

end Rank

namespace Thread

variable {C : Type} {n : Nat}

/-- Whether a thread may dispatch an event that is due at an instant. -/
def Admits (plan : Plan n) (thread : Thread C) (time : Instant) : Prop :=
  thread.phase = .dispatching ∧ ∀ bound, plan.bound thread.start = some bound → time < bound

/-- Where a thread goes from a step within a window, and with which failure. -/
structure Leads (plan : Plan n) (thread : Thread C) (worker : Worker C) (phase : Phase) :
    Prop where
  /-- It stays within the window, skips the exchange since it failed, or ends as a single one. -/
  target : phase.inWindow ∨
    (plan.alone = false ∧ phase = .arriving .exchange ∧ worker.failure.isSome) ∨
    (plan.alone = true ∧ phase.isOver)
  /-- It does not return to the setup. -/
  forward : phase.isStarting → thread.phase.isStarting
  /-- Among others, it dispatches only where it has not failed. -/
  healthy : phase = .dispatching → plan.alone = false →
    worker.failure = none ∨ thread.phase = .dispatching ∧ worker.failure = thread.worker.failure

/-- Whether a thread has left its rounds as all ranks decided: it finishes for the common reason,
unless a finish hook breaks off, or it ends with its failure, or with that of another rank. -/
def Heeds (thread : Thread C) : Decision → Prop
  | .proceed _ => False
  | .stop reason =>
    (∃ rest, thread.phase = .finishing reason rest) ∨ thread.phase = .ended (.ok reason) ∨
      ∃ panic, thread.phase = .ended (.error (.panicked panic))
  | .abort =>
    thread.phase = .ended (.error (.failed
      (thread.worker.failure.getD (.peerAborted thread.rank.id))))

/-- What a step of a thread does. -/
inductive Moves (plan : Plan n) (view : View n) : Thread C → Thread C → Effect n → Prop where
  /-- The rank acts within the window. -/
  | worked {thread : Thread C} (worker : Worker C) (phase : Phase) {deeds : List Deed}
      (before : thread.phase.inWindow)
      (course : Rank.Course (thread.Admits plan) thread.rank deeds worker.rank)
      (leads : thread.Leads plan worker phase) :
      Moves plan view thread { thread with worker, phase, history := thread.history ++ deeds } .idle
  /-- The window ends, and what is laid out is to be posted. -/
  | stopped {thread : Thread C} (limitHit : Bool) (before : thread.phase = .dispatching)
      (among : plan.alone = false) :
      Moves plan view thread
        { thread with
          worker := { thread.worker with rank := { thread.rank with outgoing := [] }, limitHit }
          phase := .posting thread.rank.outgoing.reverse } .idle
  /-- A parcel is posted. -/
  | posted {thread : Thread C} {parcel : Parcel} {rest : List Parcel} {target : Fin n}
      (before : thread.phase = .posting (parcel :: rest))
      (known : plan.index? parcel.target = some target) :
      Moves plan view thread (thread.goTo (.posting rest)) (.post target parcel)
  /-- All parcels are posted. -/
  | postedAll {thread : Thread C} (before : thread.phase = .posting []) :
      Moves plan view thread (thread.goTo (.arriving .exchange)) .idle
  /-- A parcel is for no rank. -/
  | lost {thread : Thread C} {parcel : Parcel} {rest : List Parcel}
      (before : thread.phase = .posting (parcel :: rest))
      (unknown : plan.index? parcel.target = none) :
      Moves plan view thread
        { thread with
          worker := { thread.worker with failure := some (.unknownRank parcel.target) }
          phase := .arriving .exchange } .idle
  /-- The thread arrives at a barrier. -/
  | arrived {thread : Thread C} {gate : Gate} (before : thread.phase = .arriving gate) :
      Moves plan view thread (thread.goTo (.waiting gate view.generation)) .arrive
  /-- The thread leaves a barrier that has opened. -/
  | passed {thread : Thread C} {gate : Gate} {generation : Nat}
      (before : thread.phase = .waiting gate generation)
      (opened : view.generation ≠ generation) :
      Moves plan view thread (thread.goTo gate.behind) .idle
  /-- A parcel is taken out of the channel. -/
  | took {thread : Thread C} {taken : List Parcel} {parcel : Parcel} {rest : List Parcel}
      (before : thread.phase = .draining taken) (inbox : view.inbox = parcel :: rest) :
      Moves plan view thread (thread.goTo (.draining (taken ++ [parcel]))) .take
  /-- The channel is empty, and what was taken is scheduled. -/
  | scheduled {thread : Thread C} {taken : List Parcel}
      (before : thread.phase = .draining taken) (inbox : view.inbox = []) :
      Moves plan view thread (thread.schedule taken) .idle
  /-- The status is published. -/
  | published {thread : Thread C} (before : thread.phase = .publishing) :
      Moves plan view thread (thread.goTo (.arriving .decision)) (.publish thread.worker.status)
  /-- The status of a rank is read. -/
  | read {thread : Thread C} {read : List RankStatus} (before : thread.phase = .reading read)
      (left : read.length < n) :
      Moves plan view thread
        (thread.goTo (.reading (read ++ [view.board ⟨read.length, left⟩]))) .idle
  /-- All ranks go on. -/
  | proceeded {thread : Thread C} {read : List RankStatus} {next : Instant}
      (before : thread.phase = .reading read) (all : n ≤ read.length)
      (decided : decision read = .proceed next) :
      Moves plan view thread
        { thread with
          start := next
          round := thread.round + 1
          phase := .opening
          minutes := thread.minutes ++ [read] } .idle
  /-- All ranks leave their rounds. -/
  | concluded {thread : Thread C} {read : List RankStatus} {worker : Worker C} {phase : Phase}
      (before : thread.phase = .reading read) (all : n ≤ read.length)
      (decided : ∀ next, decision read ≠ .proceed next)
      (course : Rank.Course (fun _ => False) thread.rank [] worker.rank) (gone : phase.isOver)
      (heeds : Heeds { thread with worker, phase } (decision read)) :
      Moves plan view thread
        { thread with worker, phase, minutes := thread.minutes ++ [read] } .idle
  /-- A finish hook is called, or all have been. -/
  | finished {thread : Thread C} (worker : Worker C) {phase : Phase}
      (before : thread.phase.isOver)
      (course : Rank.Course (fun _ => False) thread.rank [] worker.rank) (gone : phase.isOver)
      (heeds : ∀ decision, thread.Heeds decision → Heeds { thread with worker, phase } decision) :
      Moves plan view thread { thread with worker, phase } .idle

variable {plan : Plan n} {view : View n} {thread : Thread C}

/-- The step of a thread that opens a window is a move. -/
theorem moves_openWindow (before : thread.phase = .opening) :
    Moves plan view thread (thread.openWindow plan) .idle := by
  have window : thread.phase.inWindow := by rw [before]; trivial
  have unchanged (worker : Worker C) (phase : Phase) (same : worker.rank = thread.rank)
      (leads : thread.Leads plan worker phase) :
      Moves plan view thread { thread with worker, phase } .idle := by
    have still : Rank.Course (thread.Admits plan) thread.rank [] worker.rank := by
      rw [same]
      exact .refl _
    rw [← List.append_nil thread.history]
    exact .worked worker phase window still leads
  rw [openWindow]
  cases alone : plan.alone with
  | true =>
    rw [if_pos rfl]
    refine unchanged thread.worker .dispatching rfl
      ⟨Or.inl trivial, fun next => next.elim, fun _ among => ?_⟩
    rw [alone] at among
    cases among
  | false =>
    rw [if_neg Bool.false_ne_true]
    cases failed : thread.worker.failure with
    | some error =>
      rw [if_pos Option.isSome_some]
      refine unchanged { thread.worker with limitHit := false } (.arriving .exchange) rfl
        ⟨Or.inr (Or.inl ⟨alone, rfl, ?_⟩), fun next => next.elim, fun next => by cases next⟩
      rw [failed]
      rfl
    | none =>
      rw [if_neg (by simp only [Option.isSome_none, Bool.false_eq_true, not_false_eq_true])]
      have noted : Rank.Course (thread.Admits plan) thread.rank []
          (thread.worker.note .trace ["window ", thread.start.label, " .. ",
            ((plan.bound thread.start).getD Instant.max).label]).rank :=
        .single (.wrote thread.rank _)
      have move : Moves plan view thread _ _ := .worked _ .dispatching window noted
        ⟨Or.inl trivial, fun next => next.elim, fun _ _ => Or.inl failed⟩
      rw [List.append_nil] at move
      exact move

/-- The step of a thread that has read all is a move. -/
theorem moves_decide {read : List RankStatus} (before : thread.phase = .reading read)
    (all : n ≤ read.length) : Moves plan view thread (thread.decide read) .idle := by
  rw [decide]
  cases decided : decision read with
  | proceed next => exact .proceeded before all decided
  | stop reason =>
    refine .concluded before all (fun next same => by cases decided.symm.trans same)
      (.single (.wrote thread.rank _)) trivial ?_
    rw [decided]
    exact Or.inl ⟨_, rfl⟩
  | abort =>
    refine .concluded before all (fun next same => by cases decided.symm.trans same)
      (.refl thread.rank) trivial ?_
    rw [decided]
    rfl

variable [Component C]

/-- The step of a thread that has setup hooks to call is a move. -/
theorem moves_startNext {rest : List ComponentId} (before : thread.phase = .starting rest) :
    Moves plan view thread (thread.startNext plan.alone rest) .idle := by
  have window : thread.phase.inWindow := by rw [before]; trivial
  have starting : thread.phase.isStarting := by rw [before]; trivial
  cases rest with
  | nil =>
    have leads : thread.Leads plan thread.worker .opening :=
      ⟨Or.inl trivial, fun _ => starting, fun next => by cases next⟩
    have move : Moves plan view thread _ _ := .worked _ _ window (.refl _) leads
    rw [List.append_nil] at move
    exact move
  | cons id rest =>
    have course : Rank.Course (thread.Admits plan) thread.rank _ _ :=
      Rank.setup_course id thread.rank
    rw [startNext]
    cases called : thread.rank.setup id with
    | mk rank halt =>
      rw [called] at course
      cases halt with
      | none =>
        exact .worked { thread.worker with rank } _ window course
          ⟨Or.inl trivial, fun _ => starting, fun next => by cases next⟩
      | some halt =>
        simp only
        cases alone : plan.alone with
        | true =>
          rw [if_pos rfl]
          exact .worked { thread.worker with rank } _ window course
            ⟨Or.inr (Or.inr ⟨alone, trivial⟩), fun next => next.elim, fun next => by cases next⟩
        | false =>
          rw [if_neg Bool.false_ne_true]
          exact .worked ⟨rank, some (Worker.errorOf rank.id halt), false⟩ _ window course
            ⟨Or.inl trivial, fun _ => starting, fun next => by cases next⟩

/-- The step of a thread that dispatches is a move. -/
theorem moves_dispatchNext (before : thread.phase = .dispatching) :
    Moves plan view thread (thread.dispatchNext plan) .idle := by
  have window : thread.phase.inWindow := by rw [before]; trivial
  rw [dispatchNext]
  cases turn : thread.rank.turn (plan.bound thread.start) (plan.byVote thread.round) with
  | error stop =>
    simp only [stopped]
    cases alone : plan.alone with
    | true =>
      rw [if_pos rfl]
      have move : Moves plan view thread _ _ := .worked thread.worker
        (.finishing (Simulation.reasonOf stop) thread.positions) window (.refl _)
        ⟨Or.inr (Or.inr ⟨alone, trivial⟩), fun next => next.elim, fun next => by cases next⟩
      rw [List.append_nil] at move
      exact move
    | false =>
      rw [if_neg Bool.false_ne_true]
      exact .stopped _ before alone
  | ok taken =>
    obtain ⟨event, pending⟩ := taken
    obtain ⟨popped, early⟩ := Rank.turn_ok turn
    have course : Rank.Course (thread.Admits plan) thread.rank _ _ :=
      Rank.dispatch_course popped ⟨before, early⟩
    simp only
    cases called : Rank.dispatch event { thread.rank with pending } with
    | mk rank halt =>
      rw [called] at course
      cases halt with
      | none =>
        have move : Moves plan view thread _ _ :=
          .worked { thread.worker with rank } .dispatching window course
          ⟨Or.inl trivial, fun next => next.elim, fun _ _ => Or.inr ⟨before, rfl⟩⟩
        rw [← before] at move
        exact move
      | some halt =>
        simp only [halted]
        cases alone : plan.alone with
        | true =>
          rw [if_pos rfl]
          exact .worked { thread.worker with rank } _ window course
            ⟨Or.inr (Or.inr ⟨alone, trivial⟩), fun next => next.elim, fun next => by cases next⟩
        | false =>
          rw [if_neg Bool.false_ne_true]
          exact .worked ⟨rank, some (Worker.errorOf rank.id halt), false⟩ _ window course
            ⟨Or.inr (Or.inl ⟨alone, rfl, rfl⟩), fun next => next.elim, fun next => by cases next⟩

/-- The step of a thread that has finish hooks to call is a move. -/
theorem moves_finishNext {reason : Termination} {rest : List ComponentId}
    (before : thread.phase = .finishing reason rest) :
    Moves plan view thread (thread.finishNext reason rest) .idle := by
  have gone : thread.phase.isOver := by rw [before]; trivial
  -- A thread that calls finish hooks heeds the reason for it alone.
  have heeds (worker : Worker C) (phase : Phase)
      (follows : Heeds { thread with worker, phase } (.stop reason)) (decision : Decision)
      (former : thread.Heeds decision) : Heeds { thread with worker, phase } decision := by
    cases decision with
    | proceed next => exact former
    | abort => cases before.symm.trans former
    | stop other =>
      rcases former with ⟨rest, same⟩ | same | ⟨panic, same⟩
      · cases before.symm.trans same
        exact follows
      · cases before.symm.trans same
      · cases before.symm.trans same
  cases rest with
  | nil =>
    exact .finished thread.worker gone (.refl thread.rank) trivial
      (heeds _ _ (Or.inr (Or.inl rfl)))
  | cons id rest =>
    have course : Rank.Course (fun _ => False) thread.rank _ _ :=
      Rank.finishOne_course id thread.rank
    rw [finishNext]
    cases called : thread.rank.finishOne id with
    | mk rank halt =>
      rw [called] at course
      cases halt with
      | none =>
        exact .finished { thread.worker with rank } gone course trivial
          (heeds _ _ (Or.inl ⟨rest, rfl⟩))
      | some halt =>
        obtain ⟨panic, rfl⟩ := Rank.panicked_of_finishOne called
        exact .finished { thread.worker with rank } gone course trivial
          (heeds _ _ (Or.inr (Or.inr ⟨panic, rfl⟩)))

/-- The step of a thread by where it is. -/
inductive Steps (plan : Plan n) (view : View n) (thread : Thread C) : Thread C → Effect n → Prop where
  /-- It calls its next setup hook. -/
  | starts {rest : List ComponentId} (before : thread.phase = .starting rest) :
      Steps plan view thread (thread.startNext plan.alone rest) .idle
  /-- It opens its window. -/
  | opens (before : thread.phase = .opening) : Steps plan view thread (thread.openWindow plan) .idle
  /-- It dispatches its next event. -/
  | dispatches (before : thread.phase = .dispatching) :
      Steps plan view thread (thread.dispatchNext plan) .idle
  /-- It posts a parcel. -/
  | posts {parcel : Parcel} {rest : List Parcel} {target : Fin n}
      (before : thread.phase = .posting (parcel :: rest))
      (known : plan.index? parcel.target = some target) :
      Steps plan view thread (thread.goTo (.posting rest)) (.post target parcel)
  /-- It has no more parcels to post. -/
  | postsAll (before : thread.phase = .posting []) :
      Steps plan view thread (thread.goTo (.arriving .exchange)) .idle
  /-- Its next parcel is for no rank. -/
  | loses {parcel : Parcel} {rest : List Parcel} (before : thread.phase = .posting (parcel :: rest))
      (unknown : plan.index? parcel.target = none) :
      Steps plan view thread
        { thread with
          worker := { thread.worker with failure := some (.unknownRank parcel.target) }
          phase := .arriving .exchange } .idle
  /-- It arrives at a barrier. -/
  | arrives {gate : Gate} (before : thread.phase = .arriving gate) :
      Steps plan view thread (thread.goTo (.waiting gate view.generation)) .arrive
  /-- It leaves a barrier that has opened. -/
  | passes {gate : Gate} {generation : Nat} (before : thread.phase = .waiting gate generation)
      (opened : view.generation ≠ generation) : Steps plan view thread (thread.goTo gate.behind) .idle
  /-- It takes a parcel out of its channel. -/
  | takes {taken : List Parcel} {parcel : Parcel} {rest : List Parcel}
      (before : thread.phase = .draining taken) (inbox : view.inbox = parcel :: rest) :
      Steps plan view thread (thread.goTo (.draining (taken ++ [parcel]))) .take
  /-- It schedules what it took. -/
  | schedules {taken : List Parcel} (before : thread.phase = .draining taken)
      (inbox : view.inbox = []) : Steps plan view thread (thread.schedule taken) .idle
  /-- It publishes its status. -/
  | publishes (before : thread.phase = .publishing) :
      Steps plan view thread (thread.goTo (.arriving .decision)) (.publish thread.worker.status)
  /-- It reads the status of a rank. -/
  | reads {read : List RankStatus} (before : thread.phase = .reading read) (left : read.length < n) :
      Steps plan view thread (thread.goTo (.reading (read ++ [view.board ⟨read.length, left⟩]))) .idle
  /-- It decides by the status of all ranks. -/
  | decides {read : List RankStatus} (before : thread.phase = .reading read) (all : n ≤ read.length) :
      Steps plan view thread (thread.decide read) .idle
  /-- It calls its next finish hook. -/
  | finishes {reason : Termination} {rest : List ComponentId}
      (before : thread.phase = .finishing reason rest) :
      Steps plan view thread (thread.finishNext reason rest) .idle

/-- Where a thread is says what it does next. -/
theorem steps_of_step {next : Thread C} {effect : Effect n}
    (stepped : thread.step plan view = some (next, effect)) :
    Steps plan view thread next effect := by
  rw [step] at stepped
  cases before : thread.phase with
  | starting rest =>
    simp only [before, Option.some.injEq, Prod.mk.injEq] at stepped
    obtain ⟨rfl, rfl⟩ := stepped
    exact .starts before
  | opening =>
    simp only [before, Option.some.injEq, Prod.mk.injEq] at stepped
    obtain ⟨rfl, rfl⟩ := stepped
    exact .opens before
  | dispatching =>
    simp only [before, Option.some.injEq, Prod.mk.injEq] at stepped
    obtain ⟨rfl, rfl⟩ := stepped
    exact .dispatches before
  | posting rest =>
    simp only [before, Option.some.injEq] at stepped
    cases rest with
    | nil =>
      cases stepped
      exact .postsAll before
    | cons parcel rest =>
      rw [postNext] at stepped
      split at stepped
      · next target known =>
        cases stepped
        exact .posts before known
      · next unknown =>
        cases stepped
        exact .loses before unknown
  | arriving gate =>
    simp only [before, Option.some.injEq, Prod.mk.injEq] at stepped
    obtain ⟨rfl, rfl⟩ := stepped
    exact .arrives before
  | waiting gate generation =>
    simp only [before] at stepped
    split at stepped
    · cases stepped
    · next opened =>
      cases stepped
      exact .passes before opened
  | draining taken =>
    simp only [before] at stepped
    split at stepped
    · next inbox =>
      cases stepped
      exact .schedules before inbox
    · next parcel rest inbox =>
      cases stepped
      exact .takes before inbox
  | publishing =>
    simp only [before, Option.some.injEq, Prod.mk.injEq] at stepped
    obtain ⟨rfl, rfl⟩ := stepped
    exact .publishes before
  | reading read =>
    simp only [before, Option.some.injEq, Prod.mk.injEq] at stepped
    obtain ⟨rfl, rfl⟩ := stepped
    rw [readNext]
    split
    · next left => exact .reads before left
    · next all => exact .decides before (Nat.le_of_not_lt all)
  | finishing reason rest =>
    simp only [before, Option.some.injEq, Prod.mk.injEq] at stepped
    obtain ⟨rfl, rfl⟩ := stepped
    exact .finishes before
  | ended result =>
    simp only [before, reduceCtorEq] at stepped

/-- A thread that has ended has no step. -/
theorem not_ended_of_step {next : Thread C} {effect : Effect n}
    (stepped : thread.step plan view = some (next, effect)) (result : Except Halt Termination) :
    thread.phase ≠ .ended result := by
  intro ended
  rw [step, ended] at stepped
  cases stepped

/-- Every step of a thread is a move. -/
theorem moves_of_step {next : Thread C} {effect : Effect n}
    (stepped : thread.step plan view = some (next, effect)) :
    Moves plan view thread next effect := by
  cases steps_of_step stepped with
  | starts before => exact moves_startNext before
  | opens before => exact moves_openWindow before
  | dispatches before => exact moves_dispatchNext before
  | posts before known => exact .posted before known
  | postsAll before => exact .postedAll before
  | loses before unknown => exact .lost before unknown
  | arrives before => exact .arrived before
  | passes before opened => exact .passed before opened
  | takes before inbox => exact .took before inbox
  | schedules before inbox => exact .scheduled before inbox
  | publishes before => exact .published before
  | reads before left => exact .read before left
  | decides before all => exact moves_decide before all
  | finishes before => exact moves_finishNext before

end Thread

end Rally
