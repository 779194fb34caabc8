import Rally.Proofs.Threads.Lockstep
/-!
# Calls in a step

In a step of its thread a rank calls one hook, or none. Only a hook changes components, casts votes and
hands messages to links.
-/

namespace Rally

namespace Rank

/-- What neither a message that is handed to a link nor a log line changes is the same behind a flush. -/
theorem kept_flush {C α : Type} (f : Rank C → α)
    (sent : ∀ rank binding message, f (send rank binding message) = f rank)
    (noted : ∀ rank slot level message, f (note rank slot level message) = f rank) (slot : Slot C)
    (sends : List (PortId × Message)) (rank : Rank C) : f (flush slot sends rank).1 = f rank := by
  induction sends generalizing rank with
  | nil => rfl
  | cons first rest ih =>
    rw [flush]
    cases slot.binding? first.1 with
    | none => exact noted _ _ _ _
    | some binding => exact (ih _).trans (sent _ _ _)

section Flush

variable {C : Type} (slot : Slot C) (sends : List (PortId × Message)) (rank : Rank C)

/-- Handing messages to links moves no component. -/
theorem slots_flush : (flush slot sends rank).1.slots = rank.slots :=
  kept_flush slots (fun _ _ _ => by rw [send]; split <;> rfl) (fun _ _ _ _ => rfl) _ _ _

/-- It dispatches nothing. -/
theorem dispatched_flush : (flush slot sends rank).1.dispatched = rank.dispatched :=
  kept_flush dispatched (fun _ _ _ => by rw [send]; split <;> rfl) (fun _ _ _ _ => rfl) _ _ _

/-- It casts no vote. -/
theorem tally_flush : (flush slot sends rank).1.tally = rank.tally :=
  kept_flush tally (fun _ _ _ => by rw [send]; split <;> rfl) (fun _ _ _ _ => rfl) _ _ _

/-- It takes no time. -/
theorem now_flush : (flush slot sends rank).1.now = rank.now :=
  kept_flush now (fun _ _ _ => by rw [send]; split <;> rfl) (fun _ _ _ _ => rfl) _ _ _

end Flush

section Hooks

variable {C : Type} [Component C] (rank : Rank C)

/-- A setup hook leaves the places of components. -/
theorem size_setup (id : ComponentId) : (rank.setup id).1.slots.size = rank.slots.size := by
  rw [setup]
  split
  · rfl
  · dsimp only
    split
    · exact Array.size_setIfInBounds
    · rw [slots_flush]
      exact Array.size_setIfInBounds

/-- The handling of a message leaves the places of components. -/
theorem size_dispatch (event : Scheduled Delivery) (pending : EventSet Delivery) :
    (dispatch event { rank with pending }).1.slots.size = rank.slots.size := by
  rw [dispatch_eq]
  split
  · rfl
  · rw [deliver]
    split
    · dsimp only
      split
      · rw [slots_flush]
        exact Array.size_setIfInBounds
      · exact Array.size_setIfInBounds
      · exact Array.size_setIfInBounds
    · rfl

/-- A finish hook leaves the places of components. -/
theorem size_finishOne (id : ComponentId) :
    (rank.finishOne id).1.slots.size = rank.slots.size := by
  rw [finishOne]
  split
  · rfl
  · dsimp only
    split
    · exact Array.size_setIfInBounds
    · split <;> exact Array.size_setIfInBounds

/-- A setup hook dispatches nothing. -/
theorem dispatched_setup (id : ComponentId) : (rank.setup id).1.dispatched = rank.dispatched := by
  rw [setup]
  split
  · rfl
  · dsimp only
    split
    · rfl
    · exact dispatched_flush _ _ _

/-- It takes no time. -/
theorem now_setup (id : ComponentId) : (rank.setup id).1.now = rank.now := by
  rw [setup]
  split
  · rfl
  · dsimp only
    split
    · rfl
    · exact now_flush _ _ _

/-- A finish hook dispatches nothing. -/
theorem dispatched_finishOne (id : ComponentId) :
    (rank.finishOne id).1.dispatched = rank.dispatched := by
  rw [finishOne]
  split
  · rfl
  · dsimp only
    split
    · rfl
    · split <;> rfl

/-- It takes no time. -/
theorem now_finishOne (id : ComponentId) : (rank.finishOne id).1.now = rank.now := by
  rw [finishOne]
  split
  · rfl
  · dsimp only
    split
    · rfl
    · split <;> rfl

/-- To dispatch an event counts one. -/
theorem dispatched_dispatch (event : Scheduled Delivery) (pending : EventSet Delivery) :
    (dispatch event { rank with pending }).1.dispatched = rank.dispatched + 1 := by
  rw [dispatch_eq]
  cases rank.slot? (rank.receiver event.payload).component with
  | none => rfl
  | some slot =>
    dsimp only
    rw [deliver]
    split
    · dsimp only
      split
      · exact dispatched_flush _ _ _
      · rfl
      · rfl
    · rfl

/-- To dispatch an event takes until it is due. -/
theorem now_dispatch (event : Scheduled Delivery) (pending : EventSet Delivery) :
    (dispatch event { rank with pending }).1.now = event.time := by
  rw [dispatch_eq]
  cases rank.slot? (rank.receiver event.payload).component with
  | none => rfl
  | some slot =>
    dsimp only
    rw [deliver]
    split
    · dsimp only
      split
      · exact now_flush _ _ _
      · rfl
      · rfl
    · rfl

end Hooks

end Rank

/-- A hook that a thread calls. -/
inductive Hook where
  /-- The setup hook of a position. -/
  | setup (id : ComponentId)
  /-- That of the receiver of an event, which leaves others behind. -/
  | dispatch (event : Scheduled Delivery) (pending : EventSet Delivery)
  /-- The finish hook of a position. -/
  | finish (id : ComponentId)

namespace Thread

variable {C : Type} [Component C] {n : Nat} {plan : Plan n} {view : View n} {thread next : Thread C}
  {effect : Effect n}

/-- What becomes of the rank of a thread in a step: one of its hooks is called, or its components, its votes,
the number of its events and its time stay the same. -/
inductive Calls (plan : Plan n) (thread : Thread C) : Rank C → Prop where
  /-- A setup hook is called. -/
  | setup {id : ComponentId} {rest : List ComponentId} (before : thread.phase = .starting (id :: rest)) :
      Calls plan thread (thread.rank.setup id).1
  /-- The next event is dispatched. -/
  | dispatch {event : Scheduled Delivery} {pending : EventSet Delivery}
      (before : thread.phase = .dispatching)
      (turn : thread.rank.turn (plan.bound thread.start) (plan.byVote thread.round) =
        .ok (event, pending)) :
      Calls plan thread (Rank.dispatch event { thread.rank with pending }).1
  /-- A finish hook is called. -/
  | finish {reason : Termination} {id : ComponentId} {rest : List ComponentId}
      (before : thread.phase = .finishing reason (id :: rest)) :
      Calls plan thread (thread.rank.finishOne id).1
  /-- No hook is called. -/
  | none {last : Rank C} (slots : last.slots = thread.rank.slots)
      (tally : last.tally = thread.rank.tally)
      (dispatched : last.dispatched = thread.rank.dispatched)
      (now : last.now = thread.rank.now) : Calls plan thread last

/-- A call leaves the places of components. -/
theorem Calls.size {last : Rank C} (calls : Calls plan thread last) :
    last.slots.size = thread.rank.slots.size := by
  cases calls with
  | setup => exact thread.rank.size_setup _
  | dispatch => exact thread.rank.size_dispatch _ _
  | finish => exact thread.rank.size_finishOne _
  | none slots => rw [slots]

/-- The hook that a thread calls in its next step, if it calls one. -/
def hook? (plan : Plan n) (thread : Thread C) : Option Hook :=
  match thread.phase with
  | .starting (id :: _) => some (.setup id)
  | .dispatching =>
    (thread.rank.turn (plan.bound thread.start) (plan.byVote thread.round)).toOption.map
      fun (event, pending) => .dispatch event pending
  | .finishing _ (id :: _) => some (.finish id)
  | _ => none

/-- What becomes of the rank of a thread in a step, and what happens on it: one of its hooks is called, or
events are scheduled at most. -/
inductive Behaves (plan : Plan n) (thread : Thread C) : Rank C → List Deed → Prop where
  /-- A setup hook is called. -/
  | setup {id : ComponentId} {rest : List ComponentId} (before : thread.phase = .starting (id :: rest)) :
      Behaves plan thread (thread.rank.setup id).1 (thread.rank.setupDeeds id)
  /-- The next event is dispatched. -/
  | dispatch {event : Scheduled Delivery} {pending : EventSet Delivery}
      (before : thread.phase = .dispatching)
      (turn : thread.rank.turn (plan.bound thread.start) (plan.byVote thread.round) =
        .ok (event, pending)) :
      Behaves plan thread (Rank.dispatch event { thread.rank with pending }).1
        (thread.rank.dispatchDeeds event pending)
  /-- A finish hook is called. -/
  | finish {reason : Termination} {id : ComponentId} {rest : List ComponentId}
      (before : thread.phase = .finishing reason (id :: rest)) :
      Behaves plan thread (thread.rank.finishOne id).1 []
  /-- No hook is called. -/
  | quiet {last : Rank C} {deeds : List Deed} (none : thread.hook? plan = none)
      (slots : last.slots = thread.rank.slots) (tally : last.tally = thread.rank.tally)
      (dispatched : last.dispatched = thread.rank.dispatched)
      (now : last.now = thread.rank.now)
      (still : ∀ deed ∈ deeds, ∃ time last, deed = .scheduled time last) :
      Behaves plan thread last deeds

/-- A thread that calls no hook in a step behaves quietly. -/
theorem Behaves.idle (none : thread.hook? plan = none) (history : next.history = thread.history)
    (slots : next.rank.slots = thread.rank.slots) (tally : next.rank.tally = thread.rank.tally)
    (dispatched : next.rank.dispatched = thread.rank.dispatched)
    (now : next.rank.now = thread.rank.now) :
    ∃ deeds, next.history = thread.history ++ deeds ∧ Behaves plan thread next.rank deeds :=
  ⟨[], by rw [history, List.append_nil],
    .quiet none slots tally dispatched now fun _ inside => absurd inside List.not_mem_nil⟩

/-- What a thread does that has setup hooks to call. -/
theorem behaves_startNext {rest : List ComponentId} (alone : Bool)
    (phase : thread.phase = .starting rest) :
    ∃ deeds, (thread.startNext alone rest).history = thread.history ++ deeds ∧
      Behaves plan thread (thread.startNext alone rest).rank deeds := by
  cases rest with
  | nil => exact Behaves.idle (by rw [hook?, phase]) rfl rfl rfl rfl rfl
  | cons id rest =>
    have called : Behaves plan thread (thread.rank.setup id).1 (thread.rank.setupDeeds id) :=
      .setup phase
    rw [startNext]
    dsimp only
    split
    · next rank result =>
      rw [result] at called
      exact ⟨_, rfl, called⟩
    · next rank halt result =>
      rw [result] at called
      split <;> exact ⟨_, rfl, called⟩

/-- What a thread does that opens a window. -/
theorem behaves_openWindow (phase : thread.phase = .opening) :
    ∃ deeds, (thread.openWindow plan).history = thread.history ++ deeds ∧
      Behaves plan thread (thread.openWindow plan).rank deeds := by
  have none : thread.hook? plan = none := by rw [hook?, phase]
  rw [openWindow]
  split
  · exact Behaves.idle none rfl rfl rfl rfl rfl
  · split <;> exact Behaves.idle none rfl rfl rfl rfl rfl

/-- What a thread does that dispatches. -/
theorem behaves_dispatchNext (phase : thread.phase = .dispatching) :
    ∃ deeds, (thread.dispatchNext plan).history = thread.history ++ deeds ∧
      Behaves plan thread (thread.dispatchNext plan).rank deeds := by
  rw [dispatchNext]
  split
  · next stop turn =>
    have none : thread.hook? plan = none := by
      rw [hook?, phase]
      simp only [turn, Except.toOption, Option.map_none]
    rw [stopped]
    split <;> exact Behaves.idle none rfl rfl rfl rfl rfl
  · next event pending turn =>
    have called : Behaves plan thread (Rank.dispatch event { thread.rank with pending }).1
        (thread.rank.dispatchDeeds event pending) := .dispatch phase turn
    dsimp only
    split
    · next rank result =>
      rw [result] at called
      exact ⟨_, rfl, called⟩
    · next rank halt result =>
      rw [result] at called
      rw [halted]
      split <;> exact ⟨_, rfl, called⟩

/-- What a thread does that has finish hooks to call. -/
theorem behaves_finishNext {reason : Termination} {rest : List ComponentId}
    (phase : thread.phase = .finishing reason rest) :
    ∃ deeds, (thread.finishNext reason rest).history = thread.history ++ deeds ∧
      Behaves plan thread (thread.finishNext reason rest).rank deeds := by
  cases rest with
  | nil => exact Behaves.idle (by rw [hook?, phase]) rfl rfl rfl rfl rfl
  | cons id rest =>
    have called : Behaves plan thread (thread.rank.finishOne id).1 [] := .finish phase
    rw [finishNext]
    split <;>
      next result =>
        rw [result] at called
        exact ⟨[], (List.append_nil _).symm, called⟩

/-- What a step makes of the rank of a thread, and what happens on it. -/
theorem behaves_of_step (stepped : thread.step plan view = some (next, effect)) :
    ∃ deeds, next.history = thread.history ++ deeds ∧ Behaves plan thread next.rank deeds := by
  cases steps_of_step stepped with
  | starts phase => exact behaves_startNext _ phase
  | opens phase => exact behaves_openWindow phase
  | dispatches phase => exact behaves_dispatchNext phase
  | postsAll phase | posts phase | loses phase | arrives phase | passes phase | takes phase
  | publishes phase | reads phase =>
    exact Behaves.idle (by rw [hook?, phase]) rfl rfl rfl rfl rfl
  | schedules phase =>
    exact ⟨_, rfl, .quiet (by rw [hook?, phase]) rfl rfl rfl rfl fun deed inside =>
      Rank.eq_scheduled_of_mem inside⟩
  | @decides read phase =>
    rw [Thread.decide]
    cases decision read <;> exact Behaves.idle (by rw [hook?, phase]) rfl rfl rfl rfl rfl
  | finishes phase => exact behaves_finishNext phase

/-- What a step makes of the rank of a thread. -/
theorem calls_of_step (stepped : thread.step plan view = some (next, effect)) :
    Calls plan thread next.rank := by
  obtain ⟨deeds, -, behaves⟩ := behaves_of_step stepped
  generalize next.rank = last at behaves ⊢
  cases behaves with
  | setup before => exact .setup before
  | dispatch before turn => exact .dispatch before turn
  | finish before => exact .finish before
  | quiet _ slots tally dispatched now => exact .none slots tally dispatched now

end Thread

end Rally
